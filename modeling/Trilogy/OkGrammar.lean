import Mathlib.Data.List.Forall2
import Trilogy.Accepted
import Trilogy.Protocol

namespace Trilogy

open Lib Reader

inductive Entry
  | gtids (tag : UInt8) (id : List UInt8)
  | other (type : UInt8) (data : List UInt8)

inductive EntryForm : Entry → List UInt8 → Prop
  | gtids {tag : UInt8} {id s extra w : List UInt8} (hs : LenencString id s)
      (fits : id.length ≤ maxLastGtidLen) (hw : LenencString (tag :: (s ++ extra)) w) :
      EntryForm (.gtids tag id) (sessionTrackGtids :: w)
  | other {type : UInt8} {data w : List UInt8} (h : type ≠ sessionTrackGtids)
      (hw : LenencString data w) : EntryForm (.other type data) (type :: w)

def BlockForm (entries : List Entry) (block : List UInt8) : Prop :=
  ∃ words, List.Forall₂ EntryForm entries words ∧ words.flatten = block

def Entry.id? : Entry → Option (List UInt8)
  | .gtids _ id => some id
  | .other _ _ => none

/-- The id of the last GTIDS entry. -/
def lastGtid (entries : List Entry) : Option (List UInt8) := (entries.filterMap Entry.id?).getLast?

/-- The id that an entry has takes the place of the one before. -/
theorem lastGtid_cons (entry : Entry) (entries : List Entry) (last : List UInt8) :
    (lastGtid (entry :: entries)).getD last = (lastGtid entries).getD (entry.id?.getD last) := by
  unfold lastGtid
  cases entry with
  | gtids tag id =>
    rw [List.filterMap_cons_some (by rfl : Entry.id? (.gtids tag id) = some id), List.getLast?_cons]
    rfl
  | other type data =>
    rw [List.filterMap_cons_none rfl]
    rfl

theorem EntryForm.pos {entry : Entry} {w : List UInt8} (h : EntryForm entry w) :
    0 < w.length := by
  cases h <;> simp

theorem length_le_flatten {entries : List Entry} {words : List (List UInt8)}
    (h : List.Forall₂ EntryForm entries words) : entries.length ≤ words.flatten.length := by
  induction h with
  | nil => exact Nat.le_refl _
  | cons hentry _ ih =>
    have := hentry.pos
    rw [List.length_cons, List.flatten_cons, List.length_append]
    omega

/-- The id of a GTIDS entry. -/
theorem accepts_gtid :
    Cursor.Accepts (do let _ ← getUint8; getLenencBuffer) fun input id left =>
      ∃ tag s, LenencString id s ∧ input = tag :: (s ++ left) := by
  refine (accepts_getUint8.bind fun _ => accepts_getLenencBuffer).of_iff fun input id left => ?_
  constructor
  · rintro ⟨tag, _, rfl, s, hs, rfl⟩
    exact ⟨tag, s, hs, rfl⟩
  · rintro ⟨tag, s, hs, rfl⟩
    exact ⟨tag, _, rfl, s, hs, rfl⟩

/-- A turn of the loop, and the id it comes upon. -/
def entryId : Proc Code Reader (Option (List UInt8)) := do
  let type ← getUint8
  let state_info ← getLenencBuffer
  if type = sessionTrackGtids then do
    let id ← Cursor.nested (do let _ ← getUint8; getLenencBuffer) state_info
    if id.length > maxLastGtidLen then throw .protocolViolation
    else pure (some id)
  else pure none

theorem sessionStateChanges_succ (turns : Nat) (last_gtid : List UInt8) :
    sessionStateChanges (turns + 1) last_gtid = (do
      let done ← eof
      if done then pure last_gtid
      else do
        let id ← entryId
        sessionStateChanges turns (id.getD last_gtid)) := by
  simp only [sessionStateChanges, entryId, bind_assoc]
  congr! 6
  split
  · simp only [bind_assoc]
    congr! 2
    funext id
    split <;> rfl
  · rfl

theorem accepts_entryId :
    Cursor.Accepts entryId fun input id left =>
      ∃ entry w, EntryForm entry w ∧ id = entry.id? ∧ input = w ++ left := by
  refine (accepts_getUint8.bind fun type => accepts_getLenencBuffer.bind fun state_info =>
    .ite (fun _ => (accepts_gtid.nested state_info).bind fun id =>
      .ite (fun _ => .throw _) fun _ => .pure (some id)) fun _ => .pure none).of_iff
    fun input id left => ?_
  constructor
  · rintro ⟨type, _, rfl, state_info, mid, ⟨w, hw, rfl⟩, gtids, other⟩
    by_cases htype : type = sessionTrackGtids
    · obtain ⟨id, _, ⟨rfl, extra, tag, s, hs, rfl⟩, long, short⟩ := gtids htype
      by_cases fits : id.length > maxLastGtidLen
      · exact (long fits).elim
      · obtain ⟨rfl, rfl⟩ := short fits
        subst htype
        exact ⟨_, _, .gtids hs (Nat.le_of_not_lt fits) hw, rfl, rfl⟩
    · obtain ⟨rfl, rfl⟩ := other htype
      exact ⟨_, _, .other htype hw, rfl, rfl⟩
  · rintro ⟨entry, w, hentry, rfl, rfl⟩
    cases hentry with
    | gtids hs fits hw =>
      refine ⟨_, _, rfl, _, _, ⟨_, hw, rfl⟩, fun _ => ?_, fun htype => absurd rfl htype⟩
      exact ⟨_, _, ⟨rfl, _, _, _, hs, rfl⟩, fun long => absurd long (Nat.not_lt_of_le fits),
        fun _ => ⟨rfl, rfl⟩⟩
    | other htype hw =>
      exact ⟨_, _, rfl, _, _, ⟨_, hw, rfl⟩, fun h => absurd h htype, fun _ => ⟨rfl, rfl⟩⟩

/-- The turns a block needs are no more than its bytes. -/
theorem accepts_sessionStateChanges (turns : Nat) (last_gtid : List UInt8) :
    Cursor.Accepts (sessionStateChanges turns last_gtid) fun input last left =>
      ∃ entries words, List.Forall₂ EntryForm entries words ∧ input = words.flatten ++ left ∧
        entries.length ≤ turns ∧ (entries.length < turns → left = []) ∧
        last = (lastGtid entries).getD last_gtid := by
  induction turns generalizing last_gtid with
  | zero =>
    refine (Cursor.Accepts.pure _).of_iff fun input last left => ?_
    constructor
    · rintro ⟨rfl, rfl⟩
      exact ⟨[], [], .nil, rfl, Nat.le_refl _, fun h => absurd h (Nat.lt_irrefl _), rfl⟩
    · rintro ⟨entries, words, hwords, rfl, hle, -, rfl⟩
      obtain rfl := List.length_eq_zero_iff.mp (Nat.le_zero.mp hle)
      cases hwords
      exact ⟨rfl, rfl⟩
  | succ turns ih =>
    rw [sessionStateChanges_succ]
    refine (accepts_eof.bind fun done => .ite (fun _ => .pure last_gtid) fun _ =>
      accepts_entryId.bind fun id => ih (id.getD last_gtid)).of_iff fun input last left => ?_
    constructor
    · rintro ⟨_, input, ⟨rfl, rfl⟩, stops, goes⟩
      by_cases done : input.isEmpty = true
      · obtain ⟨rfl, rfl⟩ := stops done
        obtain rfl := List.isEmpty_iff.mp done
        exact ⟨[], [], .nil, rfl, Nat.zero_le _, fun _ => rfl, rfl⟩
      · obtain ⟨_, _, ⟨entry, w, hentry, rfl, rfl⟩, entries, words, hwords, rfl, hle, hend, rfl⟩ :=
          goes done
        refine ⟨entry :: entries, w :: words, .cons hentry hwords, ?_, Nat.succ_le_succ hle,
          fun hlt => hend (Nat.lt_of_succ_lt_succ hlt), (lastGtid_cons _ _ _).symm⟩
        rw [List.flatten_cons, List.append_assoc]
    · rintro ⟨entries, words, hwords, rfl, hle, hend, rfl⟩
      cases hwords with
      | nil =>
        obtain rfl := hend (Nat.succ_pos _)
        exact ⟨_, _, ⟨rfl, rfl⟩, fun _ => ⟨rfl, rfl⟩, fun more => absurd rfl more⟩
      | @cons entry w entries words hentry hwords =>
        have some : ¬ ((w :: words).flatten ++ left).isEmpty = true := by
          have := hentry.pos
          rw [List.flatten_cons, List.append_assoc, List.isEmpty_iff, ← List.length_eq_zero_iff,
            List.length_append]
          omega
        refine ⟨_, _, ⟨rfl, rfl⟩, fun done => absurd done some, fun _ => ?_⟩
        refine ⟨_, _, ⟨entry, w, hentry, rfl, ?_⟩, entries, words, hwords, rfl,
          Nat.le_of_succ_le_succ hle, fun hlt => hend (Nat.succ_lt_succ hlt), lastGtid_cons _ _ _⟩
        rw [List.flatten_cons, List.append_assoc]

/-- A whole block, with a turn for each of its bytes. -/
theorem accepts_block (block : List UInt8) :
    Cursor.Accepts (Cursor.nested (sessionStateChanges block.length []) block)
      fun input last left =>
        left = input ∧ ∃ entries, BlockForm entries block ∧ last = (lastGtid entries).getD [] := by
  refine ((accepts_sessionStateChanges block.length []).nested block).of_iff
    fun input last left => ?_
  refine and_congr_right fun _ => ?_
  constructor
  · rintro ⟨rest, entries, words, hwords, hblock, hle, hend, rfl⟩
    have hlen := congrArg List.length hblock
    rw [List.length_append] at hlen
    have hwords_le := length_le_flatten hwords
    obtain rfl : rest = [] := by
      by_cases hlt : entries.length < block.length
      · exact hend hlt
      · exact List.length_eq_zero_iff.mp (by omega)
    rw [List.append_nil] at hblock
    exact ⟨entries, ⟨words, hwords, hblock.symm⟩, rfl⟩
  · rintro ⟨entries, ⟨words, hwords, rfl⟩, rfl⟩
    exact ⟨[], entries, words, hwords, (List.append_nil _).symm, length_le_flatten hwords,
      fun _ => rfl, rfl⟩

/-- What the status flags and warnings are in. -/
inductive StatusForm (capabilities : UInt32) (packet : OkPacket) : List UInt8 → OkPacket → Prop
  | full (status_flags warning_count : UInt16) (h : has capabilities Capabilities.protocol41) :
      StatusForm capabilities packet
        (leBytes 2 status_flags.toNat ++ leBytes 2 warning_count.toNat)
        { packet with status_flags, warning_count }
  | transactions (txn_status_flags : UInt16) (h : ¬ has capabilities Capabilities.protocol41)
      (ht : has capabilities Capabilities.transactions) :
      StatusForm capabilities packet (leBytes 2 txn_status_flags.toNat)
        { packet with txn_status_flags }
  | absent (h : ¬ has capabilities Capabilities.protocol41)
      (ht : ¬ has capabilities Capabilities.transactions) : StatusForm capabilities packet [] packet

/-- What follows them. The status decides whether there are entries. -/
inductive InfoForm (capabilities : UInt32) (packet : OkPacket) : List UInt8 → OkPacket → Prop
  | plain (info : List UInt8) (h : ¬ has capabilities Capabilities.sessionTrack) :
      InfoForm capabilities packet info { packet with info }
  | absent (h : has capabilities Capabilities.sessionTrack) :
      InfoForm capabilities packet [] { packet with info := [] }
  | status {session_status s : List UInt8} (h : has capabilities Capabilities.sessionTrack)
      (hs : LenencString session_status s) (same : packet.status_flags &&& sessionStateChanged = 0) :
      InfoForm capabilities packet s { packet with session_status }
  | changes {session_status s block w : List UInt8} {entries : List Entry}
      (h : has capabilities Capabilities.sessionTrack) (hs : LenencString session_status s)
      (hw : LenencString block w) (hentries : BlockForm entries block)
      (changed : packet.status_flags &&& sessionStateChanged ≠ 0) :
      InfoForm capabilities packet (s ++ w)
        { packet with
          session_status
          session_state_changes := block
          last_gtid := (lastGtid entries).getD [] }

def OkPacket.start (affected_rows last_insert_id : UInt64) : OkPacket where
  affected_rows := affected_rows
  last_insert_id := last_insert_id
  status_flags := 0
  warning_count := 0
  txn_status_flags := 0
  session_status := []
  session_state_changes := []
  info := []
  last_gtid := []

inductive OkForm (capabilities : UInt32) : List UInt8 → OkPacket → Prop
  | intro {header : UInt8} {rows id : UInt64} {r i status info : List UInt8}
      {head packet : OkPacket} (hrows : LenencForm rows.toNat r) (hid : LenencForm id.toNat i)
      (hstatus : StatusForm capabilities (.start rows id) status head)
      (hinfo : InfoForm capabilities head info packet) :
      OkForm capabilities (header :: (r ++ (i ++ (status ++ info)))) packet

theorem LenencString.ne_nil {d w : List UInt8} (h : LenencString d w) (left : List UInt8) :
    (w ++ left).isEmpty = false := by
  obtain ⟨l, hl, rfl⟩ := h
  cases hl <;> rfl

theorem accepts_parseOkStatus (capabilities : UInt32) (packet : OkPacket) :
    Cursor.Accepts (parseOkStatus capabilities packet) fun input head left =>
      ∃ w, StatusForm capabilities packet w head ∧ input = w ++ left := by
  unfold parseOkStatus
  by_cases h41 : has capabilities Capabilities.protocol41
  · rw [if_pos h41]
    refine (accepts_getUint16.bind fun status_flags => accepts_getUint16.bind fun warning_count =>
      .pure _).of_iff fun input head left => ?_
    constructor
    · rintro ⟨status_flags, _, rfl, warning_count, _, rfl, rfl, rfl⟩
      exact ⟨_, .full _ _ h41, (List.append_assoc _ _ _).symm⟩
    · rintro ⟨w, h, rfl⟩
      cases h with
      | full _ _ _ => exact ⟨_, _, List.append_assoc _ _ _, _, _, rfl, rfl, rfl⟩
      | transactions _ h _ => exact absurd h41 h
      | absent h _ => exact absurd h41 h
  · rw [if_neg h41]
    by_cases ht : has capabilities Capabilities.transactions
    · rw [if_pos ht]
      refine (accepts_getUint16.bind fun txn_status_flags => .pure _).of_iff
        fun input head left => ?_
      constructor
      · rintro ⟨txn_status_flags, _, rfl, rfl, rfl⟩
        exact ⟨_, .transactions _ h41 ht, rfl⟩
      · rintro ⟨w, h, rfl⟩
        cases h with
        | full _ _ h => exact absurd h h41
        | transactions _ _ _ => exact ⟨_, _, rfl, rfl, rfl⟩
        | absent _ h => exact absurd ht h
    · rw [if_neg ht]
      refine (Cursor.Accepts.pure _).of_iff fun input head left => ?_
      constructor
      · rintro ⟨rfl, rfl⟩
        exact ⟨[], .absent h41 ht, rfl⟩
      · rintro ⟨w, h, rfl⟩
        cases h with
        | full _ _ h => exact absurd h h41
        | transactions _ _ h => exact absurd h ht
        | absent _ _ => exact ⟨rfl, rfl⟩

theorem infoForm_of_parse {capabilities : UInt32} {packet packet' : OkPacket} {c c' : Reader}
    (hp : c.pos ≤ c.buff.length)
    (h : parseOkInfo capabilities packet c = (.ok packet', c')) :
    c'.pos ≤ c'.buff.length ∧ (c'.rest = [] → InfoForm capabilities packet c.rest packet') := by
  obtain ⟨done, c₁, p₁, ⟨rfl, r₁⟩, h₁⟩ := accepts_eof.bind_ok hp h
  rw [← r₁] at h₁ ⊢
  by_cases htrack : (has capabilities Capabilities.sessionTrack && !c₁.rest.isEmpty) = true
  · rw [if_pos htrack] at h₁
    obtain ⟨track, -⟩ := Bool.and_eq_true_iff.mp htrack
    obtain ⟨session_status, c₂, p₂, ⟨s, hs, r₂⟩, h₂⟩ := accepts_getLenencBuffer.bind_ok p₁ h₁
    by_cases changed : (packet.status_flags &&& sessionStateChanged != 0) = true
    · rw [if_pos changed] at h₂
      obtain ⟨block, c₃, p₃, ⟨w, hw, r₃⟩, h₃⟩ := accepts_getLenencBuffer.bind_ok p₂ h₂
      obtain ⟨_, c₄, p₄, ⟨r₄, entries, hentries, rfl⟩, h₄⟩ := (accepts_block block).bind_ok p₃ h₃
      cases h₄
      refine ⟨p₄, fun hend => ?_⟩
      rw [r₂, r₃, ← r₄, hend, List.append_nil]
      exact .changes track hs hw hentries (by simpa using changed)
    · rw [if_neg changed] at h₂
      cases h₂
      refine ⟨p₂, fun hend => ?_⟩
      rw [r₂, hend, List.append_nil]
      exact .status track hs (by simpa using changed)
  · rw [if_neg htrack] at h₁
    obtain ⟨info, c₂, p₂, ⟨rfl, -⟩, h₂⟩ := accepts_getEofBuffer.bind_ok p₁ h₁
    cases h₂
    refine ⟨p₂, fun _ => ?_⟩
    by_cases track : has capabilities Capabilities.sessionTrack
    · have hnil : c₁.rest = [] := by simpa [track] using htrack
      rw [hnil]
      exact .absent track
    · exact .plain _ track

theorem reads_infoForm {capabilities : UInt32} {packet packet' : OkPacket} {info : List UInt8}
    (h : InfoForm capabilities packet info packet') :
    Cursor.Reads (parseOkInfo capabilities packet) info (.ok packet') [] := by
  unfold parseOkInfo
  refine .bind (reads_eof _) ?_
  cases h with
  | plain _ h =>
    rw [if_neg (by simp [h])]
    exact .bind (reads_getEofBuffer _) (.pure _ _)
  | absent h =>
    rw [if_neg (by simp)]
    exact .bind (reads_getEofBuffer _) (.pure _ _)
  | @status session_status _ h hs same =>
    have hne := hs.ne_nil []
    have hread : Cursor.Reads getLenencBuffer info (.ok session_status) [] :=
      accepts_getLenencBuffer.complete ⟨info, hs, (List.append_nil _).symm⟩
    rw [List.append_nil] at hne
    rw [if_pos (by simp [h, hne])]
    refine .bind hread ?_
    rw [if_neg (by simp [same])]
    exact .pure _ _
  | @changes session_status s block w entries h hs hw hentries changed =>
    have hread : Cursor.Reads getLenencBuffer w (.ok block) [] :=
      accepts_getLenencBuffer.complete ⟨w, hw, (List.append_nil _).symm⟩
    rw [if_pos (by simp [h, hs.ne_nil])]
    refine .bind (accepts_getLenencBuffer.complete ⟨s, hs, rfl⟩) ?_
    rw [if_pos (by simpa using changed)]
    exact .bind hread (.bind ((accepts_block block).complete ⟨rfl, entries, hentries, rfl⟩)
      (.pure _ _))

/-- The OK parser accepts its grammar and nothing else. -/
theorem parseOkPacket_ok_iff {capabilities : UInt32} {b : List UInt8} {packet : OkPacket} :
    parse (parseOkPacket capabilities) b = .ok packet ↔ OkForm capabilities b packet := by
  constructor
  · intro h
    have h₀ := Proc.ends h
    have p₀ : 0 ≤ b.length := Nat.zero_le _
    rw [parseOkPacket] at h₀
    obtain ⟨header, c₁, p₁, r₁, h₁⟩ := accepts_getUint8.bind_ok p₀ h₀
    obtain ⟨rows, c₂, p₂, ⟨r, hrows, r₂⟩, h₂⟩ := accepts_getLenenc.bind_ok p₁ h₁
    obtain ⟨id, c₃, p₃, ⟨i, hid, r₃⟩, h₃⟩ := accepts_getLenenc.bind_ok p₂ h₂
    obtain ⟨head, c₄, p₄, ⟨status, hstatus, r₄⟩, h₄⟩ :=
      (accepts_parseOkStatus capabilities (.start rows id)).bind_ok p₃ h₃
    obtain ⟨packet', c₅, h₅, h₆⟩ := Proc.bind_ok.mp h₄
    obtain ⟨p₅, hinfo⟩ := infoForm_of_parse p₄ h₅
    obtain ⟨-, c₆, -, ⟨hend, -⟩, h₇⟩ := accepts_finish.bind_ok p₅ h₆
    cases h₇
    have hb : b = header :: c₁.rest := r₁
    rw [hb, r₂, r₃, r₄]
    exact ⟨hrows, hid, hstatus, hinfo hend⟩
  · intro h
    cases h with | @intro header rows id r i status info head packet hrows hid hstatus hinfo
    have hpacket : Cursor.Reads (parseOkPacket capabilities)
        (header :: (r ++ (i ++ (status ++ info)))) (.ok packet) [] :=
      .bind (reads_getUint8 _ _) <| .bind (accepts_getLenenc.complete ⟨_, hrows, rfl⟩) <|
      .bind (accepts_getLenenc.complete ⟨_, hid, rfl⟩) <|
      .bind ((accepts_parseOkStatus capabilities _).complete ⟨_, hstatus, rfl⟩) <|
      .bind (reads_infoForm hinfo) <| .bind reads_finish <| .pure _ _
    exact hpacket.run

end Trilogy
