import Trilogy.HostCheck

namespace Trilogy

open Curl

/-- `HostnameValidationResult` -/
inductive HostnameValidationResult
  | matchFound | matchNotFound | noSANPresent | malformedCertificate | error
  deriving DecidableEq

/-- `GENERAL_NAME`; the bytes are those of the ASN.1 string. -/
inductive GeneralName
  | dns (dNSName : List UInt8)
  | other

/-- What is asked of a certificate: the names in the extension, if it is there, and the
data of the common name, if there is a common name that it can be got from. -/
structure Certificate where
  san_names : Option (List GeneralName)
  common_name : Option (List UInt8)

/-- `matches_common_name` -/
def matchesCommonName (hostname : List UInt8) (server_cert : Certificate) :
    HostnameValidationResult :=
  match server_cert.common_name with
  | none => .error
  | some common_name_str =>
    if common_name_str.length ≠ strlen common_name_str then .malformedCertificate
    else if certHostcheck common_name_str hostname then .matchFound
    else .matchNotFound

/-- The loop of `matches_subject_alternative_name`. -/
def checkNames (hostname : List UInt8) : List GeneralName → HostnameValidationResult
  | [] => .matchNotFound
  | .other :: names => checkNames hostname names
  | .dns dns_name :: names =>
    if dns_name.length ≠ strlen dns_name then .malformedCertificate
    else if certHostcheck dns_name hostname then .matchFound
    else checkNames hostname names

/-- `matches_subject_alternative_name` -/
def matchesSubjectAlternativeName (hostname : List UInt8) (server_cert : Certificate) :
    HostnameValidationResult :=
  match server_cert.san_names with
  | none => .noSANPresent
  | some san_names => checkNames hostname san_names

/-- `validate_hostname` -/
def validateHostname (hostname : Option (List UInt8)) (server_cert : Option Certificate) :
    HostnameValidationResult :=
  match hostname, server_cert with
  | some hostname, some server_cert =>
    let result := matchesSubjectAlternativeName hostname server_cert
    if result = .noSANPresent then matchesCommonName hostname server_cert else result
  | _, _ => .error

/-- The name is without a NUL, and it covers the host. -/
structure Names (name hostname : List UInt8) : Prop where
  text : NulFree name
  nonempty : name ≠ []
  covers : Covers name hostname

/-- A name in the extension covers the host, and no name in front of it is malformed; or
there is no extension and the common name covers the host. -/
inductive Certificate.Vouches (hostname : List UInt8) : Certificate → Prop
  | extension {before after : List GeneralName} {name : List UInt8} (common_name)
      (wellFormed : ∀ data, .dns data ∈ before → NulFree data) (names : Names name hostname) :
      Vouches hostname ⟨some (before ++ .dns name :: after), common_name⟩
  | commonName {name : List UInt8} (names : Names name hostname) :
      Vouches hostname ⟨none, some name⟩

theorem length_ne_strlen (s : List UInt8) : s.length ≠ strlen s ↔ ¬ NulFree s := by
  rw [not_iff_not, strlen]
  constructor
  · intro h
    have hcut := (List.takeWhile_prefix (· ≠ (0 : UInt8)) (l := s)).eq_of_length h.symm
    intro b hb
    rw [← hcut] at hb
    have hne := List.mem_takeWhile_imp hb
    simpa using hne
  · intro h
    rw [List.takeWhile_eq_self_iff.mpr fun b hb => decide_eq_true (h b hb)]

theorem certHostcheck_names {name hostname : List UInt8} (text : NulFree name)
    (hhostname : NulFree hostname) : certHostcheck name hostname = true ↔ Names name hostname := by
  rw [certHostcheck_iff text hhostname]
  constructor
  · rintro ⟨hname, -, hcovers⟩
    exact ⟨text, hname, hcovers⟩
  · intro h
    exact ⟨h.nonempty, h.covers.nonempty h.nonempty, h.covers⟩

theorem checkNames_iff {hostname : List UInt8} (hhostname : NulFree hostname)
    (names : List GeneralName) : checkNames hostname names = .matchFound ↔
      ∃ before name after, names = before ++ .dns name :: after ∧
        (∀ data, .dns data ∈ before → NulFree data) ∧ Names name hostname := by
  induction names with
  | nil => simp [checkNames]
  | cons current names ih =>
    cases current with
    | other =>
      rw [checkNames, ih]
      constructor
      · rintro ⟨before, name, after, rfl, hbefore, hnames⟩
        exact ⟨.other :: before, name, after, rfl, by simpa using hbefore, hnames⟩
      · rintro ⟨before, name, after, heq, hbefore, hnames⟩
        cases before with
        | nil => cases heq
        | cons _ before =>
          cases heq
          exact ⟨before, name, after, rfl, fun data hdata => hbefore data (.tail _ hdata), hnames⟩
    | dns dns_name =>
      rw [checkNames]
      by_cases htext : NulFree dns_name
      · rw [if_neg (by rw [length_ne_strlen]; exact not_not_intro htext)]
        by_cases hcheck : certHostcheck dns_name hostname = true
        · rw [if_pos hcheck]
          have hnames := (certHostcheck_names htext hhostname).mp hcheck
          exact iff_of_true rfl ⟨[], dns_name, names, rfl, by simp, hnames⟩
        · rw [if_neg hcheck, ih]
          constructor
          · rintro ⟨before, name, after, rfl, hbefore, hnames⟩
            refine ⟨.dns dns_name :: before, name, after, rfl, ?_, hnames⟩
            intro data hdata
            rcases List.mem_cons.mp hdata with h | h
            · cases h
              exact htext
            · exact hbefore data h
          · rintro ⟨before, name, after, heq, hbefore, hnames⟩
            cases before with
            | nil =>
              cases heq
              exact absurd ((certHostcheck_names htext hhostname).mpr hnames) hcheck
            | cons _ before =>
              cases heq
              exact ⟨before, name, after, rfl, fun data hdata => hbefore data (.tail _ hdata),
                hnames⟩
      · rw [if_pos ((length_ne_strlen dns_name).mpr htext)]
        refine iff_of_false (by simp) ?_
        rintro ⟨before, name, after, heq, hbefore, hnames⟩
        cases before with
        | nil =>
          cases heq
          exact htext hnames.text
        | cons _ before =>
          cases heq
          exact htext (hbefore dns_name (.head _))

theorem checkNames_present (hostname : List UInt8) (names : List GeneralName) :
    checkNames hostname names ≠ .noSANPresent := by
  induction names with
  | nil => simp [checkNames]
  | cons current names ih =>
    cases current with
    | other => exact ih
    | dns dns_name =>
      rw [checkNames]
      split
      · simp
      · split
        · simp
        · exact ih

/-- A server is taken for the host exactly when its certificate vouches for it. -/
theorem validateHostname_iff {hostname : List UInt8} (hhostname : NulFree hostname)
    (server_cert : Certificate) :
    validateHostname (some hostname) (some server_cert) = .matchFound ↔
      server_cert.Vouches hostname := by
  obtain ⟨san_names, common_name⟩ := server_cert
  cases san_names with
  | some names =>
    have hresult : validateHostname (some hostname) (some ⟨some names, common_name⟩) =
        checkNames hostname names := if_neg (checkNames_present hostname names)
    rw [hresult, checkNames_iff hhostname]
    constructor
    · rintro ⟨before, name, after, rfl, hbefore, hnames⟩
      exact .extension common_name hbefore hnames
    · intro h
      cases h with
      | extension _ hbefore hnames => exact ⟨_, _, _, rfl, hbefore, hnames⟩
  | none =>
    have hresult : validateHostname (some hostname) (some ⟨none, common_name⟩) =
        matchesCommonName hostname ⟨none, common_name⟩ := rfl
    rw [hresult]
    cases common_name with
    | none =>
      refine iff_of_false (by simp [matchesCommonName]) ?_
      intro h
      cases h
    | some name =>
      rw [matchesCommonName]
      dsimp only
      by_cases htext : NulFree name
      · rw [if_neg (by rw [length_ne_strlen]; exact not_not_intro htext)]
        have hcheck := certHostcheck_names htext hhostname
        constructor
        · intro h
          split at h
          · rename_i hmatch
            exact .commonName (hcheck.mp hmatch)
          · cases h
        · intro h
          cases h with
          | commonName hnames => rw [if_pos (hcheck.mpr hnames)]
      · rw [if_pos ((length_ne_strlen name).mpr htext)]
        refine iff_of_false (by simp) ?_
        intro h
        cases h with
        | commonName hnames => exact htext hnames.text

/-- A name with a NUL in it does not help, nor does the common name next to names. -/
theorem validateHostname_iff_nul :
    ¬ Certificate.Vouches (literal "db.test")
      ⟨some [.dns (literal "db.test" ++ 0 :: literal ".evil.test")], some (literal "db.test")⟩ := by
  rw [← validateHostname_iff (by decide)]
  decide

end Trilogy
