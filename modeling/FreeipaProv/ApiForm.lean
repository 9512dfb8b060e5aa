import FreeipaProv.Canonical

/-!
# How the API reports an attribute

A find reply wraps the value of a scalar in a list and spells booleans and
numbers as strings.  The CA ACL attributes have names of their own in a
reply, which the client translates back to its parameter names.
-/

namespace FreeipaProv

open Fallible

/-- The forms in which a reply reports a scalar. -/
inductive ApiScalar : ParamType → Atom → Val → Prop where
  | text (s : String) : ApiScalar .str (.str s) (.list [.str s])
  | number {s : String} {i : Int} (hint : pyInt s = .ok i) :
      ApiScalar .int (.int i) (.list [.str s])
  | upper (b : Bool) :
      ApiScalar .bool (.bool b) (.list [.str (if b then "TRUE" else "FALSE")])
  | bare (b : Bool) : ApiScalar .bool (.bool b) (.bool b)

/-- `clean` reads a scalar back. -/
theorem ApiScalar.cleanValue {type : ParamType} {a : Atom} {raw : Val}
    (hraw : ApiScalar type a raw) :
    FreeipaProv.cleanValue type raw = .ok (some (.atom a)) := by
  cases hraw with
  | text s => rfl
  | number hint =>
      simp [FreeipaProv.cleanValue, unwrapScalar, convertScalar, hint,
        Except.map]
  | upper b => cases b <;> rfl
  | bare b => rfl

theorem cleanValue_strs {ss : List String} (hss : ss ≠ []) :
    cleanValue .list (.list (ss.map .str)) = .ok (some (.list (ss.map .str))) := by
  cases ss with
  | nil => contradiction
  | cons s rest => rfl

/-! ## Attribute names of CA ACLs -/

/-- The parameters of the CA ACL client with their names in a reply. -/
def caaclApiNames : List (String × String) :=
  [("user", "memberuser_user"), ("group", "memberuser_group"),
   ("host", "memberhost_host"), ("hostgroup", "memberhost_hostgroup"),
   ("service", "memberservice_service"),
   ("certprofile", "ipamembercertprofile_certprofile"),
   ("ca", "ipamemberca_ca")]

/-- The name of a parameter in a reply. -/
def Client.apiName (cl : Client) (key : String) : String :=
  match cl with
  | .caacl => (caaclApiNames.lookup key).getD key
  | _ => key

/-- The member attributes of the object are those of CA ACLs, under their
names in a reply. -/
def Client.ApiNamed (cl : Client) (obj : Dict String Val) : Prop :=
  cl = .caacl → ∀ key ∈ obj.keys,
    key ∉ caaclApiNames.map Prod.fst ∧
      (caaclIsMemberKey key = true → key ∈ caaclApiNames.map Prod.snd)

theorem caaclApiNames_spec : ∀ names ∈ caaclApiNames,
    caaclIsMemberKey names.2 = true ∧ caaclNewKey names.2 = names.1 ∧
      caaclIsMemberKey names.1 = false ∧
      ∀ names' ∈ caaclApiNames, names.1 ≠ names'.2 ∧
        (names.1 = names'.1 → names.2 = names'.2) := by
  decide +kernel

theorem caaclNewKey_mem {key : String}
    (hkey : key ∈ caaclApiNames.map Prod.snd) :
    (caaclNewKey key, key) ∈ caaclApiNames := by
  obtain ⟨names, hnames, rfl⟩ := List.mem_map.mp hkey
  rw [(caaclApiNames_spec names hnames).2.1]
  exact hnames

theorem lookup_caaclRenameKey_of_ne {item : Dict String Val}
    {key renamed : String}
    (hne : caaclIsMemberKey renamed = true →
      key ≠ renamed ∧ key ≠ caaclNewKey renamed) :
    (caaclRenameKey item renamed).lookup key = item.lookup key := by
  unfold caaclRenameKey
  split
  · split
    · rename_i hmember
      obtain ⟨hkey, hnew⟩ := hne hmember
      rw [AList.lookup_insert_ne hnew, AList.lookup_erase_ne hkey]
    · rfl
  · rfl

section Rename

variable {keys : List String}

/-- Renaming leaves attributes that are no members alone. -/
theorem lookup_foldl_caaclRenameKey_of_ne {item : Dict String Val}
    (hkeys : ∀ key ∈ keys, caaclIsMemberKey key = true →
      key ∈ caaclApiNames.map Prod.snd) {key : String}
    (hmember : caaclIsMemberKey key = false)
    (hbare : key ∉ caaclApiNames.map Prod.fst) :
    (keys.foldl caaclRenameKey item).lookup key = item.lookup key := by
  induction keys generalizing item with
  | nil => rfl
  | cons first rest ih =>
      rw [List.foldl_cons,
        ih fun key hkey => hkeys key (List.mem_cons_of_mem _ hkey)]
      refine lookup_caaclRenameKey_of_ne fun hfirst => ⟨?_, ?_⟩
      · rintro rfl
        simp [hmember] at hfirst
      · rintro rfl
        exact hbare (List.mem_map.mpr
          ⟨_, caaclNewKey_mem (hkeys first List.mem_cons_self hfirst), rfl⟩)

/-- Renaming moves each member attribute to its parameter. -/
theorem lookup_foldl_caaclRenameKey {item : Dict String Val}
    (hnodup : keys.Nodup)
    (hkeys : ∀ key ∈ keys, caaclIsMemberKey key = true →
      key ∈ caaclApiNames.map Prod.snd) {names : String × String}
    (hnames : names ∈ caaclApiNames) :
    (keys.foldl caaclRenameKey item).lookup names.1 =
      if names.2 ∈ keys then (item.lookup names.2).or (item.lookup names.1)
      else item.lookup names.1 := by
  obtain ⟨hmember, hnew, -, hspec⟩ := caaclApiNames_spec names hnames
  induction keys generalizing item with
  | nil => simp
  | cons first rest ih =>
      obtain ⟨hfirst, hrest⟩ := List.nodup_cons.mp hnodup
      rw [List.foldl_cons, ih hrest fun key hkey =>
        hkeys key (List.mem_cons_of_mem _ hkey)]
      by_cases heq : first = names.2
      · subst heq
        rw [if_neg hfirst, if_pos List.mem_cons_self]
        unfold caaclRenameKey
        cases hval : item.lookup names.2 with
        | none => simp
        | some val => simp [hmember, hnew]
      · -- another member attribute goes to another parameter
        have hother : caaclIsMemberKey first = true →
            (caaclNewKey first, first) ∈ caaclApiNames := fun h =>
          caaclNewKey_mem (hkeys first List.mem_cons_self h)
        have hbare : (caaclRenameKey item first).lookup names.1 =
            item.lookup names.1 := by
          refine lookup_caaclRenameKey_of_ne fun h =>
            ⟨(hspec _ (hother h)).1, fun hsame => ?_⟩
          exact heq ((hspec _ (hother h)).2 hsame).symm
        have hapi : (caaclRenameKey item first).lookup names.2 =
            item.lookup names.2 := by
          refine lookup_caaclRenameKey_of_ne fun h => ⟨Ne.symm heq, ?_⟩
          intro hsame
          obtain ⟨-, -, -, hspec'⟩ := caaclApiNames_spec _ (hother h)
          exact (hspec' names hnames).1 hsame.symm
        have hmem : names.2 ∈ first :: rest ↔ names.2 ∈ rest := by
          simp [Ne.symm heq]
        rw [hbare, hapi]
        simp only [hmem]

end Rename

/-- No declared parameter of the CA ACL client looks like a member attribute
of a reply. -/
theorem caaclKwArgs_not_member : ∀ key ∈ caaclClass.kwArgs.keys,
    caaclIsMemberKey key = false ∧
      ((caaclApiNames.lookup key).isSome = true ↔
        key ∈ caaclApiNames.map Prod.fst) := by
  decide +kernel

/-- The client finds each declared attribute of a reply object under its
parameter name. -/
theorem lookup_apiAttributes {cl : Client} {obj : Dict String Val}
    (hnamed : cl.ApiNamed obj) {key : String}
    (hkey : key ∈ cl.cls.kwArgs.keys) :
    (cl.apiAttributes obj).lookup key = obj.lookup (cl.apiName key) := by
  by_cases hcl : cl = .caacl
  · subst hcl
    have hobj := hnamed rfl
    obtain ⟨hmember, hlookup⟩ := caaclKwArgs_not_member key hkey
    change (obj.keys.foldl caaclRenameKey obj).lookup key =
      obj.lookup ((caaclApiNames.lookup key).getD key)
    cases hapi : caaclApiNames.lookup key with
    | none =>
        rw [hapi] at hlookup
        exact lookup_foldl_caaclRenameKey_of_ne
          (fun key hkey => (hobj key hkey).2) hmember (by simpa using hlookup)
    | some api =>
        have hnames : (key, api) ∈ caaclApiNames := by
          obtain ⟨before, after, heq, -⟩ := List.lookup_eq_some_iff.mp hapi
          rw [heq]
          simp
        rw [lookup_foldl_caaclRenameKey obj.keys_nodup
          (fun key hkey => (hobj key hkey).2) hnames]
        have hbare : obj.lookup key = none := by
          rw [AList.lookup_eq_none]
          intro hmem
          exact (hobj key hmem).1 (List.mem_map_of_mem (f := Prod.fst) hnames)
        rw [hbare, Option.or_none, Option.getD_some]
        split
        · rfl
        · rename_i hnot
          exact (AList.lookup_eq_none.mpr hnot).symm
  · cases cl <;> first | rfl | contradiction

end FreeipaProv
