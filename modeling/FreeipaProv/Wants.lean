import FreeipaProv.ApiForm
import FreeipaProv.Frame
import FreeipaProv.Lib.Reconcile

/-!
# What a task wants of an object

The managed attributes of an object form a store: the list attributes are
sets of strings, the scalars single values.  A task whose parameters have
their declared types, with strings as members of lists, wants some values of
it.  In state `present` they come on top of what the object has, in state
`exact` they replace it.
-/

namespace FreeipaProv

open Fallible Reconcile

/-- The managed attributes of an object. -/
abbrev ObjState := Store String String Atom

def Client.ListAttr (cl : Client) (key : String) : Prop :=
  cl.Managed key ∧ cl.cls.paramType key = some .list

instance (cl : Client) : DecidablePred cl.ListAttr := fun _ =>
  inferInstanceAs (Decidable (_ ∧ _))

def Client.ScalarAttr (cl : Client) (key : String) : Prop :=
  cl.Managed key ∧ cl.cls.paramType key ≠ some .list

instance (cl : Client) : DecidablePred cl.ScalarAttr := fun _ =>
  inferInstanceAs (Decidable (_ ∧ _))

/-! ## Typed parameters -/

/-- The values a parameter can have once `AnsibleModule` has checked its
type, where the members of a list are strings; the check keeps members of any
kind.  A list may still be a bare string. -/
inductive ParamForm : ParamType → Val → Prop where
  | unset (type : ParamType) : ParamForm type .none
  | text (s : String) : ParamForm .str (.str s)
  | number (i : Int) : ParamForm .int (.int i)
  | flag (b : Bool) : ParamForm .bool (.bool b)
  | listed (ss : List String) : ParamForm .list (.list (ss.map .str))
  | bare (s : String) : ParamForm .list (.str s)

/-- The strings a list parameter gives. -/
def Val.strings : Val → List String
  | .str s => [s]
  | .list vs => vs.filterMap fun
      | .str s => some s
      | _ => Option.none
  | _ => []

/-- The value a scalar parameter gives. -/
def Val.scalar : Val → Option Atom
  | .none => Option.none
  | .atom a => some a
  | _ => Option.none

theorem strings_list (ss : List String) :
    (Val.list (ss.map .str)).strings = ss := by
  simp [Val.strings, List.filterMap_map]

/-- `clean` keeps the strings of a list parameter, unless there are none. -/
theorem ParamForm.cleanValue_list {raw : Val} (hform : ParamForm .list raw) :
    cleanValue .list raw =
      .ok (if raw.strings = [] then none
        else some (.list (raw.strings.map .str))) := by
  cases hform with
  | unset => rfl
  | listed ss =>
      rw [strings_list]
      cases ss with
      | nil => rfl
      | cons s rest => rfl
  | bare s => rfl

theorem ParamForm.cleanValue_scalar {type : ParamType} {raw : Val}
    (htype : type ≠ .list) (hform : ParamForm type raw) :
    cleanValue type raw = .ok (raw.scalar.map .atom) := by
  cases hform with
  | unset => exact cleanValue_none type
  | text | number | flag => rfl
  | listed | bare => contradiction

/-- The value is of the declared type. -/
def Atom.OfType : ParamType → Atom → Prop
  | .str, .str _ => True
  | .int, .int _ => True
  | .bool, .bool _ => True
  | _, _ => False

/-- Values of one type are equal in Python only if they are the same. -/
theorem Atom.OfType.pyEq_iff {type : ParamType} {a b : Atom}
    (ha : a.OfType type) (hb : b.OfType type) : a.pyEq b = true ↔ a = b := by
  cases type <;> cases a <;> cases b <;>
    simp_all [Atom.OfType, Atom.pyEq, Atom.norm]
  split_ifs <;> simp_all

theorem ParamForm.ofType {type : ParamType} {raw : Val} {a : Atom}
    (htype : type ≠ .list) (hform : ParamForm type raw)
    (hscalar : raw.scalar = some a) : a.OfType type := by
  cases hform with
  | unset => contradiction
  | text | number | flag =>
      obtain rfl := Option.some.inj hscalar
      trivial
  | listed | bare => contradiction

theorem ApiScalar.ofType {type : ParamType} {a : Atom} {raw : Val}
    (hraw : ApiScalar type a raw) : a.OfType type := by
  cases hraw <;> trivial

/-- A task whose parameters have their declared types, and whose lists are
lists of strings. -/
structure TypedTask (cl : Client) extends Task where
  typed : ∀ key raw type, given.lookup key = some raw →
    cl.cls.paramType key = some type → ParamForm type raw

namespace TypedTask

variable {cl : Client} (t : TypedTask cl)

def ansibleModule : AnsibleModule := cl.cls.ansibleModule t.toTask

theorem params_form {key : String} {raw : Val} {type : ParamType}
    (hraw : t.ansibleModule.params.lookup key = some raw)
    (htype : cl.cls.paramType key = some type) : ParamForm type raw := by
  rw [ansibleModule, ClientClass.lookup_ansibleModule_params,
    Option.or_eq_some_iff] at hraw
  rcases hraw with hgiven | ⟨-, hdefault⟩
  · exact t.typed key raw type hgiven htype
  · obtain ⟨spec, hspec, rfl⟩ := Option.map_eq_some_iff.mp htype
    have hargument := ClientClass.lookup_argumentSpec hspec
    have hcanonical := argumentSpec_isCanonical cl key
      (Dict.fst_mem_keys.mpr ⟨spec, hargument⟩)
    rw [hargument, Option.map_some, Option.some.injEq] at hdefault
    rw [hargument, Option.all_some] at hcanonical
    subst hdefault
    unfold ArgSpec.isCanonical at hcanonical
    split at hcanonical
    · rename_i hdefault
      rw [hdefault]
      exact .unset _
    · rename_i htype hdefault
      rw [htype, hdefault]
      exact .text _
    · rename_i htype hdefault
      rw [htype, hdefault]
      exact .number _
    · rename_i htype hdefault
      rw [htype, hdefault]
      exact .flag _
    · contradiction

/-- What the task wants of the managed attributes. -/
def wants : ObjState where
  lists key := {s | cl.ListAttr key ∧ ∃ raw,
    t.ansibleModule.params.lookup key = some raw ∧ s ∈ raw.strings}
  scalars key :=
    if cl.ScalarAttr key then
      (t.ansibleModule.params.lookup key).bind Val.scalar
    else none

theorem wants_scalars {key : String} (hkey : cl.ScalarAttr key) :
    t.wants.scalars key =
      (t.ansibleModule.params.lookup key).bind Val.scalar :=
  if_pos hkey

variable {t} in
theorem wants_of_given {key : String}
    (hkey : cl.ListAttr key) {ss : List String}
    (hgiven : t.given.lookup key = some (.list (ss.map .str))) :
    t.wants.lists key = {s | s ∈ ss} := by
  have hraw : t.ansibleModule.params.lookup key =
      some (.list (ss.map .str)) := by
    rw [ansibleModule, ClientClass.lookup_ansibleModule_params,
      hgiven, Option.some_or]
  ext s
  simp [wants, hkey, hraw, strings_list]

/-- The object the task asks for, given the object there is: in state `exact`
the wanted values replace the values there are, otherwise they come on top of
them. -/
def goal (obj : ObjState) : ObjState :=
  if t.state = .exact then
    t.wants.override cl.ListAttr cl.ScalarAttr obj
  else t.wants.merge obj

end TypedTask

/-! ## Canonical items and objects -/

/-- The list attributes of a canonical item. -/
structure Client.ListsAs (cl : Client) (item : Dict String Val)
    (lists : String → Set String) : Prop where
  hashable : ∀ key val, (cl.cls.listSlice item).lookup key = some val →
    ∃ vals, pySet val = .ok vals
  members : ∀ key, cl.ListAttr key → ∀ a,
    a ∈ cl.cls.members item key ↔ ∃ s ∈ lists key, a = .str s

/-- The scalar attributes of a canonical item. -/
structure Client.ScalarsAs (cl : Client) (item : Dict String Val)
    (scalars : String → Option Atom) : Prop where
  lookup : ∀ key, cl.ScalarAttr key →
    item.lookup key = (scalars key).map Val.atom
  typed : ∀ key type a, cl.ScalarAttr key → cl.cls.paramType key = some type →
    scalars key = some a → a.OfType type

theorem mem_pyDedup_strs {ss : List String} {a : Atom} :
    a ∈ pyDedup (ss.map .str) ↔ ∃ s ∈ ss, a = .str s := by
  constructor
  · intro hmem
    obtain ⟨s, hs, rfl⟩ := List.mem_map.mp (mem_of_mem_pyDedup hmem)
    exact ⟨s, hs, rfl⟩
  · rintro ⟨s, hs, rfl⟩
    exact (str_mem_pyDedup s _).mpr (List.mem_map_of_mem hs)

theorem pySet_strs (ss : List String) :
    pySet (.list (ss.map .str)) = .ok (pyDedup (ss.map .str)) :=
  pySet_list_eq_ok_iff.mpr ⟨ss.map .str, by simp, rfl⟩

/-- Every list parameter is a managed attribute. -/
theorem Client.listAttr_of_type {cl : Client} {key : String}
    (htype : cl.cls.paramType key = some .list) : cl.ListAttr key := by
  have hmanaged : ∀ key ∈ cl.cls.kwArgs.keys,
      cl.cls.paramType key = some .list → cl.Managed key := by
    cases cl <;> decide +kernel
  have hdeclared := ClientClass.mem_kwArgs_of_type htype
  exact ⟨hmanaged key hdeclared htype, htype⟩

theorem Client.ListAttr.ne_cert {cl : Client} {key : String}
    (hkey : cl.ListAttr key) : cl ≠ .cert := by
  rintro rfl
  have htypes : ∀ key ∈ certClass.kwArgs.keys,
      certClass.paramType key ≠ some .list := by decide +kernel
  exact htypes key (ClientClass.mem_kwArgs_of_type hkey.2) hkey.2

/-- The value of a list attribute with these strings, if there are any. -/
def StrsValue (val : Option Val) (strs : Set String) : Prop :=
  (val = none ∧ strs = ∅) ∨
    ∃ ss : List String, val = some (.list (ss.map .str)) ∧
      ∀ s, s ∈ ss ↔ s ∈ strs

theorem Client.members_of_strs {cl : Client} {item : Dict String Val}
    {key : String} {strs : Set String}
    (htype : cl.cls.paramType key = some .list)
    (hstrs : StrsValue (item.lookup key) strs) (a : Atom) :
    a ∈ cl.cls.members item key ↔ ∃ s ∈ strs, a = .str s := by
  rcases hstrs with ⟨hnone, rfl⟩ | ⟨ss, hss, hmem⟩
  · rw [ClientClass.members_eq_nil hnone]
    simp
  · have hslice : (cl.cls.listSlice item).lookup key =
        some (.list (ss.map .str)) := by
      rw [ClientClass.lookup_listSlice, if_pos htype, hss]
    rw [ClientClass.members, hslice, Option.getD_some, pySet_strs]
    simp only [mem_pyDedup_strs, hmem]

/-- A canonical item whose lists are lists of strings. -/
theorem Client.listsAs_of_strs {cl : Client} {item : Dict String Val}
    {lists : String → Set String}
    (hstrs : ∀ key, cl.ListAttr key →
      StrsValue (item.lookup key) (lists key)) : cl.ListsAs item lists := by
  constructor
  · intro key val hval
    rw [ClientClass.lookup_listSlice] at hval
    split_ifs at hval with htype
    rcases hstrs key (Client.listAttr_of_type htype) with
      ⟨hnone, -⟩ | ⟨ss, hss, -⟩
    · rw [hnone] at hval
      contradiction
    · obtain rfl := Option.some.inj (hss.symm.trans hval)
      exact ⟨_, pySet_strs ss⟩
  · intro key hkey
    exact Client.members_of_strs hkey.2 (hstrs key hkey)

/-! ## The desired item -/

/-- No managed attribute has a default, apart from services and
certificates. -/
theorem argumentSpec_default_of_managed {cl : Client} (hcert : cl ≠ .cert)
    (hservice : cl ≠ .service) {key : String} (hkey : cl.Managed key) :
    (cl.cls.argumentSpec.lookup key).bind ArgSpec.default = none := by
  obtain ⟨spec, hspec⟩ := hkey.1.exists_spec
  have hdefault :=
    default_of_managed hcert hservice key hkey.1.mem_kwArgs hkey
  rw [hspec, Option.bind_some, Option.isNone_iff_eq_none] at hdefault
  rw [ClientClass.lookup_argumentSpec hspec, Option.bind_some, hdefault]

section Desired

variable {cl : Client} {t : TypedTask cl} {desired : Dict String Val}

/-- In states `present` and `exact` the desired item has the cleaned
parameters. -/
theorem TypedTask.lookup_desired (hcert : cl ≠ .cert)
    (hservice : cl ≠ .service) (hstate : t.state = .present ∨ t.state = .exact)
    (hok : cl.mungeModuleParams t.ansibleModule = .ok desired) {key : String}
    (hkey : cl.Managed key) :
    desired.lookup key =
      cl.cls.cleanedAt t.ansibleModule.params key := by
  have hoverrides : ¬cl.Overrides t.ansibleModule.state key := by
    change ¬cl.Overrides t.state key
    rcases hstate with hstate | hstate <;>
      simp [Client.Overrides, hstate, hcert]
  rw [Client.lookup_mungeModuleParams hok hoverrides, if_neg hkey.1.2,
    argumentSpec_default_of_managed hcert hservice hkey, ite_self,
    Option.or_none]

/-- In every state the desired item has the cleaned list parameters. -/
theorem Client.lookup_desired_list {m : AnsibleModule}
    (hok : cl.mungeModuleParams m = .ok desired) {key : String}
    (hkey : cl.ListAttr key) :
    desired.lookup key = cl.cls.cleanedAt m.params key := by
  have hoverrides : ¬cl.Overrides m.state key := by
    rintro (⟨hflag, -⟩ | ⟨rfl, rfl⟩)
    · exact hkey.1.2 hflag
    · exact absurd hkey.2 (by decide)
  have hdefaults : ∀ key ∈ cl.cls.kwArgs.keys,
      cl.cls.paramType key = some .list →
        ((cl.cls.kwArgs.lookup key).bind ArgSpec.default).isNone := by
    cases cl <;> decide +kernel
  obtain ⟨spec, hspec, -⟩ := Option.map_eq_some_iff.mp hkey.2
  have hdefault := hdefaults key (Dict.fst_mem_keys.mpr ⟨spec, hspec⟩) hkey.2
  rw [hspec, Option.isNone_iff_eq_none] at hdefault
  rw [Client.lookup_mungeModuleParams hok hoverrides, if_neg hkey.1.1.2,
    ClientClass.lookup_argumentSpec hspec, hdefault, ite_self, Option.or_none]

theorem TypedTask.desired_listsAs
    (hok : cl.mungeModuleParams t.ansibleModule = .ok desired) :
    cl.ListsAs desired t.wants.lists := by
  apply Client.listsAs_of_strs
  intro key hkey
  rw [Client.lookup_desired_list hok hkey, ClientClass.cleanedAt, hkey.2]
  cases hraw : t.ansibleModule.params.lookup key with
  | none => exact Or.inl ⟨rfl, by simp [TypedTask.wants, hraw]⟩
  | some raw =>
      have hform := t.params_form hraw hkey.2
      have hlists : t.wants.lists key = {s | s ∈ raw.strings} := by
        simp [TypedTask.wants, hkey, hraw]
      rw [Option.bind_some, Option.bind_some, hform.cleanValue_list, hlists]
      by_cases hnil : raw.strings = []
      · left
        simp [hnil, Dict.stepValue]
      · right
        exact ⟨raw.strings, by simp [hnil, Dict.stepValue], fun s => Iff.rfl⟩

theorem TypedTask.desired_scalarsAs (hcert : cl ≠ .cert)
    (hservice : cl ≠ .service) (hstate : t.state = .present ∨ t.state = .exact)
    (hok : cl.mungeModuleParams t.ansibleModule = .ok desired) :
    cl.ScalarsAs desired t.wants.scalars := by
  constructor
  · intro key hkey
    obtain ⟨type, htype⟩ := Option.ne_none_iff_exists'.mp hkey.1.1.1
    rw [TypedTask.lookup_desired hcert hservice hstate hok hkey.1,
      ClientClass.cleanedAt, htype, TypedTask.wants_scalars t hkey]
    cases hraw : t.ansibleModule.params.lookup key with
    | none => rfl
    | some raw =>
        have hne : type ≠ .list := by
          rintro rfl
          exact hkey.2 htype
        have hclean := (t.params_form hraw htype).cleanValue_scalar hne
        rw [Option.bind_some, Option.bind_some, Option.bind_some, hclean]
        rfl
  · intro key type a hkey htype hwants
    rw [TypedTask.wants_scalars t hkey] at hwants
    obtain ⟨raw, hraw, hscalar⟩ := Option.bind_eq_some_iff.mp hwants
    have hne : type ≠ .list := by
      rintro rfl
      exact hkey.2 htype
    exact (t.params_form hraw htype).ofType hne hscalar

end Desired

end FreeipaProv
