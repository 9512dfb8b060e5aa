import FreeipaProv.CertPrincipal
import FreeipaProv.Lib.SymbolCode

/-!
# Domain names and distinguished names

The filters that turn a domain name into a DN and take the common name out of
one.  They know nothing of the escapes of DNs.
-/

namespace FreeipaProv

open SymbolCode

/-! ## Filters -/

/-- `domain_to_dn`. -/
def domainToDn (data : String) : String :=
  String.ofList ([','].intercalate
    ((data.toList.splitOn '.').map fun label => 'd' :: 'c' :: '=' :: label))

def afterCn : List Char → Option (List Char)
  | 'C' :: 'N' :: '=' :: rest => some rest
  | _ => none

/-- A match of `CN=([^,]*),` at the start of the text. -/
def cnHere (text : List Char) : Option (List Char) :=
  (afterCn text).bind fun rest =>
    if ',' ∈ rest then some (rest.takeWhile (· ≠ ',')) else none

/-- `cn_from_dn`: the first match in the text. -/
def cnFromDn (data : String) : Option String :=
  (data.toList.tails.findSome? cnHere).map String.ofList

/-! ## RDNs -/

/-- The RDNs of a DN without escapes, each split at its first `=`. -/
def rdnPairs (dn : List Char) : List (List Char × List Char) :=
  (dn.splitOn ',').map fun rdn =>
    (rdn.takeWhile (· ≠ '='), (rdn.dropWhile (· ≠ '=')).tail)

/-- A DN that is written in RDNs. -/
def dnText (rdns : List (List Char)) : String :=
  String.ofList ([','].intercalate rdns)

/-- What follows the first `CN=`. -/
def commonName (rdn : List Char) : Option (List Char) :=
  rdn.tails.findSome? afterCn

theorem not_mem_label {domain label : List Char} {c : Char} (hc : c ∉ domain)
    (hlabel : label ∈ domain.splitOn '.') : c ∉ label := by
  have hsub : (['.'].intercalate [label]).Sublist
      (['.'].intercalate (domain.splitOn '.')) :=
    intercalate_sublist (List.singleton_sublist.mpr hlabel)
  rw [List.intercalate_singleton, List.intercalate_splitOn] at hsub
  exact fun hmem => hc (hsub.subset hmem)

/-- A domain name without commas can be read back from its DN. -/
theorem rdnPairs_domainToDn {domain : String} (hdomain : ',' ∉ domain.toList) :
    rdnPairs (domainToDn domain).toList =
      (domain.toList.splitOn '.').map fun label => (['d', 'c'], label) := by
  have hne : (domain.toList.splitOn '.').map
      (fun label => 'd' :: 'c' :: '=' :: label) ≠ [] := by
    rw [ne_eq, List.map_eq_nil_iff]
    exact List.splitOn_ne_nil _ _
  have hcomma : ∀ rdn ∈ (domain.toList.splitOn '.').map
      (fun label => 'd' :: 'c' :: '=' :: label), ',' ∉ rdn := by
    intro rdn hrdn
    obtain ⟨label, hlabel, rfl⟩ := List.mem_map.mp hrdn
    have hfree := not_mem_label hdomain hlabel
    simp [hfree]
  rw [rdnPairs, domainToDn, String.toList_ofList,
    List.splitOn_intercalate ',' hcomma hne, List.map_map]
  apply List.map_congr_left
  intro label _
  rfl

theorem domain_of_rdnPairs {domain : String} (hdomain : ',' ∉ domain.toList) :
    ['.'].intercalate ((rdnPairs (domainToDn domain).toList).map Prod.snd) =
      domain.toList := by
  rw [rdnPairs_domainToDn hdomain, List.map_map]
  have hlabels : (domain.toList.splitOn '.').map
      (Prod.snd ∘ fun label => (['d', 'c'], label)) =
        domain.toList.splitOn '.' := List.map_id _
  rw [hlabels, List.intercalate_splitOn]

/-- The DN of a domain name without commas has one `dc` for each label, in
their order, and is the DN of no other such name. -/
theorem domainToDn_reads {domain : String} (hdomain : ',' ∉ domain.toList) :
    rdnPairs (domainToDn domain).toList =
        (domain.toList.splitOn '.').map (fun label => (['d', 'c'], label)) ∧
      ∀ other : String, ',' ∉ other.toList →
        (domainToDn other = domainToDn domain ↔ other = domain) := by
  refine ⟨rdnPairs_domainToDn hdomain, fun other hother => ?_⟩
  constructor
  · intro hsame
    apply String.toList_inj.mp
    rw [← domain_of_rdnPairs hother, hsame, domain_of_rdnPairs hdomain]
  · rintro rfl
    rfl

theorem domainToDn_example :
    rdnPairs (domainToDn "example.com").toList =
      [("dc".toList, "example".toList), ("dc".toList, "com".toList)] :=
  (domainToDn_reads (by decide)).1

/-! ## Common names -/

theorem afterCn_eq_some_iff {text rest : List Char} :
    afterCn text = some rest ↔ text = 'C' :: 'N' :: '=' :: rest := by
  unfold afterCn
  split
  · simp
  · rename_i hno
    constructor
    · intro hnone
      cases hnone
    · intro htext
      exact absurd htext (hno rest)

theorem cnHere_of_not_mem {text : List Char} (htext : ',' ∉ text) :
    cnHere text = none := by
  cases hafter : afterCn text with
  | none => rw [cnHere, hafter, Option.bind_none]
  | some rest =>
      have hrest : ',' ∉ rest := by
        intro hmem
        apply htext
        rw [afterCn_eq_some_iff.mp hafter]
        simp [hmem]
      rw [cnHere, hafter, Option.bind_some, if_neg hrest]

theorem afterCn_append {rdn : List Char} (hrdn : ',' ∉ rdn)
    (rest : List Char) :
    afterCn (rdn ++ ',' :: rest) =
      (afterCn rdn).map fun name => name ++ ',' :: rest := by
  cases hafter : afterCn rdn with
  | some name =>
      rw [afterCn_eq_some_iff.mp hafter]
      rfl
  | none =>
      -- the comma is not in `CN=`
      rw [Option.map_none, Option.eq_none_iff_forall_ne_some]
      intro after hsome
      have htext := afterCn_eq_some_iff.mp hsome
      have hno : ∀ name, rdn ≠ 'C' :: 'N' :: '=' :: name := by
        intro name hname
        rw [afterCn_eq_some_iff.mpr hname] at hafter
        cases hafter
      match rdn with
      | [] => simp at htext
      | [_] => simp at htext
      | [_, _] => simp at htext
      | a :: b :: c :: name =>
          simp only [List.cons_append, List.cons.injEq] at htext
          exact hno name (by rw [htext.1, htext.2.1, htext.2.2.1])

/-- A match does not go over a comma. -/
theorem cnHere_append {rdn : List Char} (hrdn : ',' ∉ rdn)
    (rest : List Char) : cnHere (rdn ++ ',' :: rest) = afterCn rdn := by
  rw [cnHere, afterCn_append hrdn]
  cases hafter : afterCn rdn with
  | none => rfl
  | some name =>
      have hname : ∀ c ∈ name, decide (c ≠ ',') = true := by
        intro c hc
        rw [decide_eq_true_eq]
        rintro rfl
        apply hrdn
        rw [afterCn_eq_some_iff.mp hafter]
        simp [hc]
      have hmem : ',' ∈ name ++ ',' :: rest := by simp
      rw [Option.map_some, Option.bind_some, if_pos hmem,
        List.takeWhile_append_of_pos hname]
      simp

theorem findSome?_cnHere_append {rdn : List Char} (hrdn : ',' ∉ rdn)
    (rest : List Char) :
    (rdn ++ ',' :: rest).tails.findSome? cnHere =
      (commonName rdn).or (rest.tails.findSome? cnHere) := by
  induction rdn with
  | nil =>
      rw [List.nil_append, List.tails_cons, List.findSome?_cons]
      rfl
  | cons c rdn ih =>
      have hrest : ',' ∉ rdn := fun h => hrdn (List.mem_cons_of_mem c h)
      rw [List.cons_append, List.tails_cons, List.findSome?_cons,
        ← List.cons_append, cnHere_append hrdn, ih hrest, commonName,
        commonName, List.tails_cons, List.findSome?_cons]
      cases afterCn (c :: rdn) <;> rfl

theorem findSome?_cnHere_of_not_mem {text : List Char} (htext : ',' ∉ text) :
    text.tails.findSome? cnHere = none := by
  rw [List.findSome?_eq_none_iff]
  intro tail htail
  have hsuffix := (List.mem_tails tail text).mp htail
  exact cnHere_of_not_mem fun h => htext (hsuffix.subset h)

/-- Of a DN without escapes `cn_from_dn` reads what follows the first `CN=`, in
the first RDN that has one, but for the last RDN, which it never reads. -/
theorem cnFromDn_dnText {rdns : List (List Char)}
    (hrdns : ∀ rdn ∈ rdns, ',' ∉ rdn) :
    cnFromDn (dnText rdns) =
      (rdns.dropLast.findSome? commonName).map String.ofList := by
  rw [cnFromDn, dnText, String.toList_ofList]
  apply congrArg
  induction rdns with
  | nil => rfl
  | cons rdn rest ih =>
      rw [List.forall_mem_cons] at hrdns
      cases rest with
      | nil =>
          rw [List.intercalate_singleton]
          exact findSome?_cnHere_of_not_mem hrdns.1
      | cons next others =>
          rw [List.intercalate_cons_cons, List.append_assoc,
            List.singleton_append, findSome?_cnHere_append hrdns.1,
            ih hrdns.2, List.dropLast_cons_cons, List.findSome?_cons]
          cases commonName rdn <;> rfl

theorem cnFromDn_authority :
    cnFromDn (dnText ["O=EXAMPLE.COM".toList, "CN=Example CA".toList]) =
      none := by
  have hrdns : ∀ rdn ∈ ["O=EXAMPLE.COM".toList, "CN=Example CA".toList],
      ',' ∉ rdn := by
    intro rdn hrdn
    rw [List.mem_pair] at hrdn
    rcases hrdn with rfl | rfl
    · decide
    · decide
  rw [cnFromDn_dnText hrdns]
  decide

/-- From the subject of a certificate `cn_from_dn` reads the common name,
whatever follows.  It is the principal that `ipa_cert` reads there exactly when
an organisation follows. -/
theorem cnFromDn_principal_iff {p rdns : String} (hp : ',' ∉ p.toList) :
    cnFromDn (subjectDN p rdns) = some p ∧
      (subjectToPrincipal p = subjectToPrincipal (subjectDN p rdns) ↔
        OrgFirst rdns) := by
  constructor
  · have hrdn : ',' ∉ 'C' :: 'N' :: '=' :: p.toList := by simp [hp]
    have hhere : cnHere ('C' :: 'N' :: '=' :: (p.toList ++ ',' :: rdns.toList)) =
        some p.toList :=
      (cnHere_append hrdn rdns.toList).trans rfl
    rw [cnFromDn, subjectDN_toList, List.tails_cons, List.findSome?_cons, hhere]
    exact congrArg some String.ofList_toList
  · rw [subjectToPrincipal_name hp]
    constructor
    · intro hsame
      by_contra horg
      rw [subjectToPrincipal_other hp horg] at hsame
      exact subjectDN_ne_name hp hsame.symm
    · intro horg
      exact (subjectToPrincipal_org hp horg).symm

theorem cnFromDn_unit :
    cnFromDn (subjectDN "Example CA" "OU=pki,O=EXAMPLE.COM") =
        some "Example CA" ∧
      subjectToPrincipal "Example CA" ≠
        subjectToPrincipal (subjectDN "Example CA" "OU=pki,O=EXAMPLE.COM") := by
  obtain ⟨hcn, hiff⟩ := @cnFromDn_principal_iff "Example CA"
    "OU=pki,O=EXAMPLE.COM" (by decide)
  refine ⟨hcn, fun hsame => ?_⟩
  obtain ⟨rest, hrest⟩ := hiff.mp hsame
  simp at hrest

end FreeipaProv
