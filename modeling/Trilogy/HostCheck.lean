import Trilogy.HandshakeResponse

/-! `vendor/curl_hostcheck.c` compares a host name with a name in a certificate, and
`vendor/openssl_hostname_validation.c` goes through the names there. What a name covers
is stated without the indices that the code counts with: it is the host's name, or there
is one wildcard for a part of the host's first label. -/
namespace Trilogy

namespace Curl

/-- `Curl_raw_toupper` -/
def rawToupper (c : UInt8) : UInt8 :=
  if 0x61 ≤ c ∧ c ≤ 0x7a then c - 0x20 else c

/-- `Curl_raw_equal`, on what comes before the NUL. -/
def rawEqual : List UInt8 → List UInt8 → Bool
  | a :: first, b :: second =>
    if rawToupper a ≠ rawToupper b then rawToupper a == rawToupper b
    else rawEqual first second
  | first, second => rawToupper (first.headD 0) == rawToupper (second.headD 0)

/-- `Curl_raw_nequal` -/
def rawNequal : Nat → List UInt8 → List UInt8 → Bool
  | max + 1, a :: first, b :: second =>
    if rawToupper a ≠ rawToupper b then rawToupper a == rawToupper b
    else rawNequal max first second
  | 0, _, _ => true
  | _, first, second => rawToupper (first.headD 0) == rawToupper (second.headD 0)

/-- `strchr`, with an index for the pointer. -/
def strchr (c : UInt8) : List UInt8 → Option Nat
  | [] => none
  | b :: s => if b = c then some 0 else (strchr c s).map (· + 1)

def star : UInt8 := 0x2a

def dot : UInt8 := 0x2e

/-- `"xn--"` -/
def idnPrefix : List UInt8 := [0x78, 0x6e, 0x2d, 0x2d]

def hostmatch (hostname pattern : List UInt8) : Bool :=
  match strchr star pattern with
  | none => rawEqual pattern hostname
  | some pattern_wildcard =>
    match strchr dot pattern with
    | none => rawEqual pattern hostname
    | some pattern_label_end =>
      let wildcard_enabled :=
        !((strchr dot (pattern.drop (pattern_label_end + 1))).isNone ||
          decide (pattern_wildcard > pattern_label_end) || rawNequal 4 pattern idnPrefix)
      if !wildcard_enabled then rawEqual pattern hostname
      else
        match strchr dot hostname with
        | none => false
        | some hostname_label_end =>
          if !rawEqual (pattern.drop pattern_label_end) (hostname.drop hostname_label_end) then
            false
          else if hostname_label_end < pattern_label_end then false
          else
            let prefixlen := pattern_wildcard
            let suffixlen := pattern_label_end - (pattern_wildcard + 1)
            rawNequal prefixlen pattern hostname &&
              rawNequal suffixlen (pattern.drop (pattern_wildcard + 1))
                (hostname.drop (hostname_label_end - suffixlen))

/-- `Curl_cert_hostcheck` -/
def certHostcheck (match_pattern hostname : List UInt8) : Bool :=
  if match_pattern.isEmpty || hostname.isEmpty then false
  else if rawEqual hostname match_pattern then true
  else hostmatch hostname match_pattern

/-- The same but for the case of letters. -/
def SameLetters (s t : List UInt8) : Prop := s.map rawToupper = t.map rawToupper

theorem toNat_rawToupper (c : UInt8) : (rawToupper c).toNat =
    if 97 ≤ c.toNat ∧ c.toNat ≤ 122 then c.toNat - 32 else c.toNat := by
  by_cases h : 97 ≤ c.toNat ∧ c.toNat ≤ 122
  · have hc : (0x61 : UInt8) ≤ c ∧ c ≤ 0x7a := h
    have hle : (0x20 : UInt8) ≤ c := Nat.le_trans (by decide) h.1
    rw [rawToupper, if_pos hc, if_pos h, UInt8.toNat_sub_of_le _ _ hle]
    rfl
  · have hc : ¬ ((0x61 : UInt8) ≤ c ∧ c ≤ 0x7a) := h
    rw [rawToupper, if_neg hc, if_neg h]

theorem rawToupper_zero : rawToupper 0 = 0 := rfl

theorem rawToupper_ne_zero {c : UInt8} (h : c ≠ 0) : rawToupper c ≠ 0 := by
  intro hzero
  apply h
  have hnat := congrArg UInt8.toNat hzero
  rw [toNat_rawToupper] at hnat
  apply UInt8.toNat_inj.mp
  simp only [UInt8.toNat_zero] at hnat ⊢
  split at hnat <;> omega

theorem rawToupper_dot {c : UInt8} (h : rawToupper c = dot) : c = dot := by
  have hnat := congrArg UInt8.toNat h
  have hdot : dot.toNat = 46 := rfl
  rw [toNat_rawToupper, hdot] at hnat
  apply UInt8.toNat_inj.mp
  rw [hdot]
  split at hnat <;> omega

theorem rawEqual_iff {s t : List UInt8} (hs : NulFree s) (ht : NulFree t) :
    rawEqual s t = true ↔ SameLetters s t := by
  induction s generalizing t with
  | nil =>
    cases t with
    | nil => simp [rawEqual, SameLetters]
    | cons b t =>
      have hb := rawToupper_ne_zero (ht b (.head _))
      simp [rawEqual, SameLetters, rawToupper_zero, Ne.symm hb]
  | cons a s ih =>
    cases t with
    | nil =>
      have ha := rawToupper_ne_zero (hs a (.head _))
      simp [rawEqual, SameLetters, rawToupper_zero, ha]
    | cons b t =>
      have hrest := ih (fun x hx => hs x (.tail _ hx)) (fun x hx => ht x (.tail _ hx))
      rw [rawEqual]
      by_cases hab : rawToupper a = rawToupper b
      · simpa [SameLetters, hab] using hrest
      · simp [SameLetters, hab]

theorem rawNequal_iff {s t : List UInt8} (hs : NulFree s) (ht : NulFree t) (n : Nat) :
    rawNequal n s t = true ↔ SameLetters (s.take n) (t.take n) := by
  induction n generalizing s t with
  | zero => simp [rawNequal, SameLetters]
  | succ n ih =>
    cases s with
    | nil =>
      cases t with
      | nil => simp [rawNequal, SameLetters]
      | cons b t =>
        have hb := rawToupper_ne_zero (ht b (.head _))
        simp [rawNequal, SameLetters, rawToupper_zero, Ne.symm hb]
    | cons a s =>
      cases t with
      | nil =>
        have ha := rawToupper_ne_zero (hs a (.head _))
        simp [rawNequal, SameLetters, rawToupper_zero, ha]
      | cons b t =>
        have hrest := ih (fun x hx => hs x (.tail _ hx)) (fun x hx => ht x (.tail _ hx))
        rw [rawNequal]
        by_cases hab : rawToupper a = rawToupper b
        · simpa [SameLetters, hab] using hrest
        · simp [SameLetters, hab]

/-- A pattern with a wildcard that counts: it is in the first label, two more labels
follow, and the pattern is not an internationalised name. -/
structure Wildcard (pattern before after parent : List UInt8) : Prop where
  eq : pattern = before ++ star :: (after ++ dot :: parent)
  first : star ∉ before
  before_label : dot ∉ before
  after_label : dot ∉ after
  wide : dot ∈ parent
  plain : ¬ SameLetters (pattern.take 4) idnPrefix

/-- What a name in a certificate stands for. -/
inductive Covers : List UInt8 → List UInt8 → Prop
  | name {pattern hostname} (same : SameLetters hostname pattern) : Covers pattern hostname
  | wildcard {pattern before after parent before' part after' parent'}
      (wildcard : Wildcard pattern before after parent) (some : part ≠ [])
      (label : dot ∉ before' ++ (part ++ after')) (same_before : SameLetters before before')
      (same_after : SameLetters after after') (same_parent : SameLetters parent parent') :
      Covers pattern (before' ++ (part ++ after') ++ dot :: parent')

theorem strchr_first {c : UInt8} {s : List UInt8} (h : c ∉ s) (t : List UInt8) :
    strchr c (s ++ c :: t) = some s.length := by
  induction s with
  | nil => simp [strchr]
  | cons b s ih =>
    obtain ⟨hb, hs⟩ := not_or.mp (List.mem_cons.not.mp h)
    simp [strchr, ih hs, Ne.symm hb]

theorem strchr_none {c : UInt8} {s : List UInt8} (h : c ∉ s) : strchr c s = none := by
  induction s with
  | nil => rfl
  | cons b s ih =>
    obtain ⟨hb, hs⟩ := not_or.mp (List.mem_cons.not.mp h)
    simp [strchr, ih hs, Ne.symm hb]

theorem strchr_isNone (c : UInt8) (s : List UInt8) : (strchr c s).isNone = true ↔ c ∉ s := by
  by_cases h : c ∈ s
  · obtain ⟨before, after, rfl, hbefore⟩ := List.eq_append_cons_of_mem h
    simp [strchr_first hbefore]
  · simp [strchr_none h, h]

theorem drop_length_succ {c : UInt8} (s t : List UInt8) : (s ++ c :: t).drop (s.length + 1) = t := by
  rw [List.append_cons]
  exact List.drop_left' (by simp)

theorem hostmatch_disabled {pattern : List UInt8} {w d : Nat} (hw : strchr star pattern = some w)
    (hd : strchr dot pattern = some d)
    (disabled : dot ∉ pattern.drop (d + 1) ∨ d < w ∨ rawNequal 4 pattern idnPrefix = true)
    (hostname : List UInt8) : hostmatch hostname pattern = rawEqual pattern hostname := by
  rw [← strchr_isNone] at disabled
  rw [hostmatch, hw, hd]
  simp only
  rw [if_pos]
  rcases disabled with h | h | h <;> simp [h]

theorem Wildcard.hostmatch_eq {pattern before after parent : List UInt8}
    (w : Wildcard pattern before after parent) (hpattern : NulFree pattern)
    (hostname : List UInt8) : hostmatch hostname pattern =
      match strchr dot hostname with
      | none => false
      | some hostname_label_end =>
        rawEqual (dot :: parent) (hostname.drop hostname_label_end) &&
          (decide (before.length + 1 + after.length ≤ hostname_label_end) &&
            (rawNequal before.length pattern hostname &&
              rawNequal after.length (after ++ dot :: parent)
                (hostname.drop (hostname_label_end - after.length)))) := by
  obtain ⟨heq, hfirst, hbefore, hafter, hwide, hplain⟩ := w
  have hlabel : pattern = before ++ star :: after ++ dot :: parent := by
    rw [heq, List.append_assoc, List.cons_append]
  have hdots : dot ∉ before ++ star :: after := by
    simp [hbefore, hafter, show dot ≠ star by decide]
  have hlen : (before ++ star :: after).length = before.length + 1 + after.length := by
    simp only [List.length_append, List.length_cons]
    omega
  have hw : strchr star pattern = some before.length := by
    rw [heq]
    exact strchr_first hfirst _
  have hd : strchr dot pattern = some (before.length + 1 + after.length) := by
    rw [hlabel, ← hlen]
    exact strchr_first hdots parent
  have hparent : pattern.drop (before.length + 1 + after.length + 1) = parent := by
    rw [hlabel, ← hlen]
    exact drop_length_succ _ _
  have hdot : pattern.drop (before.length + 1 + after.length) = dot :: parent := by
    rw [hlabel, ← hlen]
    exact List.drop_left
  have hsuffix : pattern.drop (before.length + 1) = after ++ dot :: parent := by
    rw [heq]
    exact drop_length_succ _ _
  have hisNone : (strchr dot parent).isNone = false := by
    rw [Bool.eq_false_iff, Ne, strchr_isNone]
    exact not_not_intro hwide
  have hidn : rawNequal 4 pattern idnPrefix = false := by
    rw [Bool.eq_false_iff]
    exact fun h => hplain ((rawNequal_iff hpattern (by decide) 4).mp h)
  have horder : ¬ before.length > before.length + 1 + after.length := by omega
  rw [hostmatch, hw, hd]
  simp only [hparent, hdot, hsuffix, hisNone, hidn, horder, decide_false, Bool.or_self,
    Bool.not_false, Bool.not_true, Bool.false_eq_true, if_false, Nat.add_sub_cancel_left]
  cases strchr dot hostname with
  | none => rfl
  | some hostname_label_end =>
    dsimp only
    cases rawEqual (dot :: parent) (hostname.drop hostname_label_end) with
    | false => rfl
    | true =>
      by_cases hlt : hostname_label_end < before.length + 1 + after.length
      · simp [hlt, Nat.not_le_of_lt hlt]
      · simp [hlt, Nat.le_of_not_lt hlt]

/-- Without such a wildcard the names are compared letter by letter. -/
theorem wildcard_or {pattern : List UInt8} (hpattern : NulFree pattern) :
    (∃ before after parent, Wildcard pattern before after parent) ∨
      ∀ hostname, hostmatch hostname pattern = rawEqual pattern hostname := by
  by_cases hstar : star ∈ pattern
  · by_cases hdot : dot ∈ pattern
    · obtain ⟨label, parent, rfl, hlabel⟩ := List.eq_append_cons_of_mem hdot
      have hd := strchr_first hlabel parent
      have hparent := @drop_length_succ dot label parent
      by_cases hwild : star ∈ label
      · obtain ⟨before, after, rfl, hbefore⟩ := List.eq_append_cons_of_mem hwild
        have hw : strchr star (before ++ star :: after ++ dot :: parent) = some before.length := by
          rw [List.append_assoc, List.cons_append]
          exact strchr_first hbefore _
        by_cases hwide : dot ∈ parent
        · cases hidn : rawNequal 4 (before ++ star :: after ++ dot :: parent) idnPrefix with
          | true => exact .inr (hostmatch_disabled hw hd (.inr (.inr hidn)))
          | false =>
            refine .inl ⟨before, after, parent, by simp, hbefore, ?_, ?_, hwide, ?_⟩
            · exact fun h => hlabel (List.mem_append_left _ h)
            · exact fun h => hlabel (List.mem_append_right _ (.tail _ h))
            · intro hsame
              have hmatch : rawNequal 4 (before ++ star :: after ++ dot :: parent) idnPrefix =
                  true := (rawNequal_iff hpattern (by decide) 4).mpr hsame
              rw [hmatch] at hidn
              cases hidn
        · exact .inr (hostmatch_disabled hw hd (.inl (by rwa [hparent])))
      · obtain ⟨before, after, rfl, hbefore⟩ : ∃ before after, parent = before ++ star :: after ∧
            star ∉ before := by
          apply List.eq_append_cons_of_mem
          simpa [hwild, show star ≠ dot by decide] using hstar
        have hw : strchr star ((label ++ dot :: before) ++ star :: after) =
            some (label ++ dot :: before).length := by
          apply strchr_first
          simp [hwild, hbefore, show star ≠ dot by decide]
        rw [List.append_assoc, List.cons_append] at hw
        exact .inr (hostmatch_disabled hw hd (.inr (.inl (by simp))))
    · right
      intro hostname
      obtain ⟨before, after, rfl, hbefore⟩ := List.eq_append_cons_of_mem hstar
      rw [hostmatch, strchr_first hbefore, strchr_none hdot]
  · right
    intro hostname
    rw [hostmatch, strchr_none hstar]

theorem SameLetters.length {s t : List UInt8} (h : SameLetters s t) : s.length = t.length := by
  have hlength := congrArg List.length h
  simpa using hlength

theorem sameLetters_cons {c : UInt8} {s t : List UInt8} :
    SameLetters (c :: s) (c :: t) ↔ SameLetters s t := by
  simp [SameLetters]

/-- The label of the host is longer than what surrounds the wildcard, which is at its ends. -/
def Fills (before after label : List UInt8) : Prop :=
  before.length + 1 + after.length ≤ label.length ∧
    SameLetters before (label.take before.length) ∧
    SameLetters after (label.drop (label.length - after.length))

theorem fills_iff {before after label : List UInt8} : Fills before after label ↔
    ∃ before' part after', label = before' ++ (part ++ after') ∧ part ≠ [] ∧
      SameLetters before before' ∧ SameLetters after after' := by
  constructor
  · rintro ⟨hlen, hbefore, hafter⟩
    have hsplit : (label.drop before.length).drop (label.length - after.length - before.length) =
        label.drop (label.length - after.length) := by
      rw [List.drop_drop]
      congr 1
      omega
    refine ⟨label.take before.length,
      (label.drop before.length).take (label.length - after.length - before.length),
      label.drop (label.length - after.length), ?_, ?_, hbefore, hafter⟩
    · rw [← hsplit, List.take_append_drop, List.take_append_drop]
    · apply List.ne_nil_of_length_pos
      simp only [List.length_take, List.length_drop]
      omega
  · rintro ⟨before', part, after', rfl, hpart, hbefore, hafter⟩
    have hpos := List.length_pos_of_ne_nil hpart
    have hlen₁ := hbefore.length
    have hlen₂ := hafter.length
    refine ⟨?_, ?_, ?_⟩
    · simp only [List.length_append]
      omega
    · rw [hlen₁, List.take_left]
      exact hbefore
    · rw [hlen₂, ← List.append_assoc, List.length_append, Nat.add_sub_cancel, List.drop_left]
      exact hafter

theorem Wildcard.hostmatch_iff {pattern before after parent label parent' : List UInt8}
    (w : Wildcard pattern before after parent) (hpattern : NulFree pattern)
    (hhostname : NulFree (label ++ dot :: parent')) (hlabel : dot ∉ label) :
    hostmatch (label ++ dot :: parent') pattern = true ↔
      Fills before after label ∧ SameLetters parent parent' := by
  have htail : NulFree (after ++ dot :: parent) := by
    intro b hb
    apply hpattern b
    rw [w.eq]
    exact List.mem_append_right _ (.tail _ hb)
  have hparent : NulFree (dot :: parent) := fun b hb => htail b (List.mem_append_right _ hb)
  have hparent' : NulFree (dot :: parent') := fun b hb => hhostname b (List.mem_append_right _ hb)
  have hdrop : NulFree ((label ++ dot :: parent').drop (label.length - after.length)) :=
    fun b hb => hhostname b (List.mem_of_mem_drop hb)
  rw [w.hostmatch_eq hpattern, strchr_first hlabel]
  dsimp only
  rw [List.drop_left, Bool.and_eq_true, Bool.and_eq_true, Bool.and_eq_true, decide_eq_true_eq,
    rawEqual_iff hparent hparent', sameLetters_cons, rawNequal_iff hpattern hhostname,
    rawNequal_iff htail hdrop, Fills, and_comm]
  apply and_congr_left'
  apply and_congr_right
  intro hle
  have htake : pattern.take before.length = before := by
    rw [w.eq, List.take_left]
  have htake' : (label ++ dot :: parent').take before.length = label.take before.length :=
    List.take_append_of_le_length (by omega)
  have hdrop' : ((label ++ dot :: parent').drop (label.length - after.length)).take after.length =
      label.drop (label.length - after.length) := by
    rw [List.drop_append_of_le_length (Nat.sub_le _ _), List.take_left']
    rw [List.length_drop]
    omega
  rw [htake, htake', hdrop', List.take_left]

/-- A host name passes exactly when the name in the certificate covers it. -/
theorem certHostcheck_iff {pattern hostname : List UInt8} (hpattern : NulFree pattern)
    (hhostname : NulFree hostname) : certHostcheck pattern hostname = true ↔
      pattern ≠ [] ∧ hostname ≠ [] ∧ Covers pattern hostname := by
  by_cases hempty : pattern = [] ∨ hostname = []
  · rcases hempty with rfl | rfl <;> simp [certHostcheck]
  obtain ⟨hp, hh⟩ := not_or.mp hempty
  have hcheck : certHostcheck pattern hostname = true ↔
      SameLetters hostname pattern ∨ hostmatch hostname pattern = true := by
    rw [certHostcheck, if_neg (by simp [hp, hh]), ← rawEqual_iff hhostname hpattern]
    cases rawEqual hostname pattern <;> simp
  rw [hcheck]
  constructor
  · rintro (hsame | hmatch)
    · exact ⟨hp, hh, .name hsame⟩
    · refine ⟨hp, hh, ?_⟩
      obtain ⟨before, after, parent, w⟩ | hletters := wildcard_or hpattern
      · have hdot : dot ∈ hostname := by
          by_contra hdot
          rw [w.hostmatch_eq hpattern, strchr_none hdot] at hmatch
          cases hmatch
        obtain ⟨label, parent', rfl, hlabel⟩ := List.eq_append_cons_of_mem hdot
        obtain ⟨hfills, hparent⟩ := (w.hostmatch_iff hpattern hhostname hlabel).mp hmatch
        obtain ⟨before', part, after', rfl, hpart, hbefore, hafter⟩ := fills_iff.mp hfills
        exact .wildcard w hpart hlabel hbefore hafter hparent
      · rw [hletters, rawEqual_iff hpattern hhostname] at hmatch
        exact .name hmatch.symm
  · rintro ⟨-, -, hcovers⟩
    cases hcovers with
    | name same => exact .inl same
    | wildcard w hpart hlabel hbefore hafter hparent =>
      right
      rw [w.hostmatch_iff hpattern hhostname hlabel]
      exact ⟨fills_iff.mpr ⟨_, _, _, rfl, hpart, hbefore, hafter⟩, hparent⟩

theorem SameLetters.count_dot {s t : List UInt8} (h : SameLetters s t) :
    s.count dot = t.count dot := by
  have hcount : ∀ u : List UInt8, (u.map rawToupper).count dot = u.count dot := by
    intro u
    rw [List.count_eq_countP, List.count_eq_countP, List.countP_map]
    apply List.countP_congr
    intro c _
    have hdot : rawToupper c = dot ↔ c = dot := by
      constructor
      · exact rawToupper_dot
      · rintro rfl
        rfl
    simpa using hdot
  rw [← hcount s, ← hcount t, h]

/-- What is left of a name behind its first label. -/
def parentOf (name : List UInt8) : List UInt8 := name.dropWhile (· ≠ dot)

theorem parentOf_label {label : List UInt8} (h : dot ∉ label) (parent : List UInt8) :
    parentOf (label ++ dot :: parent) = dot :: parent := by
  have hlabel : ∀ c ∈ label, decide (c ≠ dot) = true := by
    intro c hc
    rw [decide_eq_true_eq]
    rintro rfl
    exact h hc
  rw [parentOf, List.dropWhile_append_of_pos hlabel]
  rfl

theorem SameLetters.parentOf {s t : List UInt8} (h : SameLetters s t) :
    SameLetters (parentOf s) (parentOf t) := by
  induction s generalizing t with
  | nil =>
    cases t with
    | nil => rfl
    | cons b t => cases h
  | cons a s ih =>
    cases t with
    | nil => cases h
    | cons b t =>
      obtain ⟨hab, hrest⟩ := List.cons.inj h
      have hdot : a = dot ↔ b = dot := by
        constructor
        · rintro rfl
          exact rawToupper_dot hab.symm
        · rintro rfl
          exact rawToupper_dot hab
      by_cases ha : a = dot
      · simp only [Curl.parentOf, List.dropWhile_cons, ha, hdot.mp ha]
        simp [SameLetters, hrest]
      · have hb : ¬ b = dot := fun hb => ha (hdot.mpr hb)
        have hs : Curl.parentOf (a :: s) = Curl.parentOf s := by simp [Curl.parentOf, ha]
        have ht : Curl.parentOf (b :: t) = Curl.parentOf t := by simp [Curl.parentOf, hb]
        rw [hs, ht]
        exact ih hrest

/-- A host has as many labels as a name that covers it, and all but the first are the
same. -/
theorem Covers.labels {pattern hostname : List UInt8} (h : Covers pattern hostname) :
    pattern.count dot = hostname.count dot ∧
      SameLetters (parentOf pattern) (parentOf hostname) := by
  cases h with
  | name same => exact ⟨same.count_dot.symm, same.parentOf.symm⟩
  | @wildcard before after parent before' part after' parent' w _ hlabel _ _ hparent =>
    have hcount := hparent.count_dot
    have hdots : dot ∉ before ++ star :: after := by
      simp [w.before_label, w.after_label, show dot ≠ star by decide]
    have hpattern : pattern = before ++ star :: after ++ dot :: parent := by
      rw [w.eq, List.append_assoc, List.cons_append]
    have hparents : ∀ {label : List UInt8} {parent : List UInt8}, dot ∉ label →
        (label ++ dot :: parent).count dot = parent.count dot + 1 := by
      intro label parent h
      rw [List.count_append, List.count_cons_self, List.count_eq_zero.mpr h, Nat.zero_add]
    rw [hpattern]
    constructor
    · rw [hparents hdots, hparents hlabel, hcount]
    · rw [parentOf_label hdots, parentOf_label hlabel]
      exact sameLetters_cons.mpr hparent

theorem Covers.nonempty {pattern hostname : List UInt8} (h : Covers pattern hostname)
    (hpattern : pattern ≠ []) : hostname ≠ [] := by
  cases h with
  | name same =>
    rintro rfl
    exact hpattern (List.length_eq_zero_iff.mp same.length.symm)
  | wildcard _ _ _ _ _ _ => simp

/-- `Curl_cert_hostcheck` takes a host name exactly when the name in the certificate
covers it; then the two have the same number of labels and all but the first in common. -/
theorem hostname_covered {pattern hostname : List UInt8} (hpattern : NulFree pattern)
    (hhostname : NulFree hostname) :
    (certHostcheck pattern hostname = true ↔ pattern ≠ [] ∧ Covers pattern hostname) ∧
    (certHostcheck pattern hostname = true → pattern.count dot = hostname.count dot ∧
      SameLetters (parentOf pattern) (parentOf hostname)) := by
  have hiff : certHostcheck pattern hostname = true ↔ pattern ≠ [] ∧ Covers pattern hostname := by
    rw [certHostcheck_iff hpattern hhostname]
    constructor
    · rintro ⟨hp, -, hcovers⟩
      exact ⟨hp, hcovers⟩
    · rintro ⟨hp, hcovers⟩
      exact ⟨hp, hcovers.nonempty hp, hcovers⟩
  refine ⟨hiff, fun h => ?_⟩
  obtain ⟨-, hcovers⟩ := hiff.mp h
  exact hcovers.labels

/-- `"d*.example.com"` covers `"DB.example.COM"`, and not `"d.b.example.com"`. -/
theorem hostname_covered_wildcard :
    Covers (literal "d*.example.com") (literal "DB.example.COM") ∧
      ¬ Covers (literal "d*.example.com") (literal "d.b.example.com") := by
  obtain ⟨hcovered, -⟩ := @hostname_covered (literal "d*.example.com") (literal "DB.example.COM")
    (by decide) (by decide)
  obtain ⟨hother, -⟩ := @hostname_covered (literal "d*.example.com") (literal "d.b.example.com")
    (by decide) (by decide)
  constructor
  · exact (hcovered.mp (by decide)).2
  · intro h
    have hcheck := hother.mpr ⟨by decide, h⟩
    exact absurd hcheck (by decide)

end Curl

end Trilogy
