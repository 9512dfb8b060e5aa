import FreeipaProv.DiffAlgebra
import FreeipaProv.Wants

/-!
# Forms of an attribute map

A typed attribute map reaches the clients as module parameters and as the
reply of the server.  The two differ: parameters are bare and a list may be a
single string, a reply wraps scalars in lists and may write booleans and
integers as strings.  `clean` maps both to the attribute map itself, so that
the diff between two forms of one map is empty.
-/

namespace FreeipaProv

open Fallible

/-! ## Decimal strings -/

theorem pyDigits_toDigits (n : ℕ) : pyDigits (Nat.toDigits 10 n) = some n := by
  have hdigits : ∀ c ∈ Nat.toDigits 10 n, c.isDigit = true := fun c hc =>
    Nat.isDigit_of_mem_toDigits (by omega) (by omega) hc
  cases hcs : Nat.toDigits 10 n with
  | nil => exact absurd hcs Nat.toDigits_ne_nil
  | cons c cs =>
      rw [← hcs]
      have hvalue := Nat.ofDigitChars_ten_toDigits (n := n)
      rw [Nat.ofDigitChars_eq_foldl] at hvalue
      have hall : (Nat.toDigits 10 n).all Char.isDigit = true :=
        List.all_eq_true.mpr hdigits
      rw [hcs] at hall hvalue ⊢
      simp only [pyDigits, hall, if_true, Option.some.injEq]
      exact hvalue

theorem isBlankChar_of_isDigit {c : Char} (hc : c.isDigit = true) :
    isBlankChar c = false := by
  unfold isBlankChar
  simp only [Bool.or_eq_false_iff, decide_eq_false_iff_not]
  refine ⟨⟨⟨⟨⟨?_, ?_⟩, ?_⟩, ?_⟩, ?_⟩, ?_⟩ <;>
  · rintro rfl
    revert hc
    decide

theorem dropWhile_isBlankChar {cs : List Char}
    (hcs : ∀ c ∈ cs, isBlankChar c = false) :
    cs.dropWhile isBlankChar = cs := by
  cases cs with
  | nil => rfl
  | cons c cs => rw [List.dropWhile_cons, hcs c List.mem_cons_self]; rfl

theorem strip_of_no_blank {cs : List Char}
    (hcs : ∀ c ∈ cs, isBlankChar c = false) :
    ((cs.dropWhile isBlankChar).reverse.dropWhile isBlankChar).reverse =
      cs := by
  rw [dropWhile_isBlankChar hcs, dropWhile_isBlankChar, List.reverse_reverse]
  intro c hc
  exact hcs c (List.mem_reverse.mp hc)

/-- `int(str(i))` is `i`. -/
theorem pyInt_toString (i : ℤ) : pyInt (toString i) = .ok i := by
  have hdigit : ∀ n, ∀ c ∈ Nat.toDigits 10 n, c.isDigit = true := fun n c hc =>
    Nat.isDigit_of_mem_toDigits (by omega) (by omega) hc
  cases i with
  | ofNat n =>
      have hchars : (toString (Int.ofNat n)).toList = Nat.toDigits 10 n :=
        Nat.toList_repr
      have hstrip := strip_of_no_blank fun c hc =>
        isBlankChar_of_isDigit (hdigit n c hc)
      unfold pyInt
      rw [hchars, hstrip]
      cases hcs : Nat.toDigits 10 n with
      | nil => exact absurd hcs Nat.toDigits_ne_nil
      | cons c cs =>
          have hc := hdigit n c (by rw [hcs]; exact List.mem_cons_self)
          have hminus : c ≠ '-' := by
            rintro rfl
            contradiction
          have hplus : c ≠ '+' := by
            rintro rfl
            contradiction
          have hvalue := pyDigits_toDigits n
          rw [hcs] at hvalue
          simp [hminus, hplus, hvalue]
  | negSucc n =>
      have hchars : (toString (Int.negSucc n)).toList =
          '-' :: Nat.toDigits 10 (n + 1) := by
        change ("-" ++ (n + 1).repr).toList = _
        rw [String.toList_append, Nat.toList_repr]
        rfl
      have hblank : ∀ c ∈ '-' :: Nat.toDigits 10 (n + 1),
          isBlankChar c = false := by
        intro c hc
        rcases List.mem_cons.mp hc with rfl | hc
        · rfl
        · exact isBlankChar_of_isDigit (hdigit (n + 1) c hc)
      unfold pyInt
      rw [hchars, strip_of_no_blank hblank]
      simp only [pyDigits_toDigits]
      rfl

/-! ## Attribute maps and their forms -/

/-- The canonical values of an attribute: lists of strings that are not
empty, and scalars of the declared type. -/
inductive AttrValue : ParamType → Val → Prop where
  | listed {ss : List String} (hss : ss ≠ []) :
      AttrValue .list (.list (ss.map .str))
  | scalar {type : ParamType} {a : Atom} (htype : a.OfType type) :
      AttrValue type (.atom a)

/-- Attributes of a schema, with values of their declared types. -/
structure AttrMap (cls : ClientClass) where
  item : Dict String Val
  typed : ∀ key val, item.lookup key = some val →
    ∃ type, cls.paramType key = some type ∧ AttrValue type val

/-- How a module parameter gives a value. -/
inductive ParamRep : ParamType → Val → Val → Prop where
  | same (type : ParamType) (val : Val) : ParamRep type val val
  | bare (s : String) : ParamRep .list (.list [.str s]) (.str s)

/-- How a reply reports a value. -/
inductive ReplyRep : ParamType → Val → Val → Prop where
  | listed (val : Val) : ReplyRep .list val val
  | wrapped {type : ParamType} (htype : type ≠ .list) (val : Val) :
      ReplyRep type val (.list [val])
  | letters {s : String} {b : Bool}
      (hcase : pyLower s = pyLower (if b then "TRUE" else "FALSE")) :
      ReplyRep .bool (.bool b) (.list [.str s])
  | decimal {s : String} {i : ℤ} (hint : pyInt s = .ok i) :
      ReplyRep .int (.int i) (.list [.str s])

/-- A reply may have an integer as its decimal digits. -/
theorem ReplyRep.digits (i : ℤ) :
    ReplyRep .int (.int i) (.list [.str (toString i)]) :=
  .decimal (pyInt_toString i)

/-- The raw value gives nothing for an attribute of the type. -/
inductive Blank : ParamType → Option Val → Prop where
  | missing (type : ParamType) : Blank type none
  | unset (type : ParamType) : Blank type (some .none)
  | empty : Blank .list (some (.list []))

/-- A form of the attribute map: each attribute is given as a module parameter
or as in a reply, and other declared attributes give nothing.  Undeclared keys
may have any value. -/
def AttrMap.Form {cls : ClientClass} (o : AttrMap cls)
    (dirty : Dict String Val) : Prop :=
  ∀ key type, cls.paramType key = some type →
    match o.item.lookup key with
    | some val => ∃ raw, dirty.lookup key = some raw ∧
        (ParamRep type val raw ∨ ReplyRep type val raw)
    | none => Blank type (dirty.lookup key)

theorem OfType.ne_list {type : ParamType} {a : Atom} (ha : a.OfType type) :
    type ≠ .list := by
  rintro rfl
  cases a <;> contradiction

theorem OfType.convertScalar {type : ParamType} {a : Atom}
    (ha : a.OfType type) :
    FreeipaProv.convertScalar type (.atom a) = .ok (some (.atom a)) := by
  cases type <;> cases a <;> first | rfl | contradiction

theorem AttrValue.cleanValue_same {type : ParamType} {val : Val}
    (hval : AttrValue type val) : cleanValue type val = .ok (some val) := by
  cases hval with
  | listed hss => exact cleanValue_strs hss
  | scalar ha =>
      rw [cleanValue_scalar (OfType.ne_list ha)]
      exact OfType.convertScalar ha

/-- `clean` reads a module parameter. -/
theorem ParamRep.cleanValue {type : ParamType} {val raw : Val}
    (hval : AttrValue type val) (hraw : ParamRep type val raw) :
    FreeipaProv.cleanValue type raw = .ok (some val) := by
  cases hraw with
  | same => exact hval.cleanValue_same
  | bare s => rfl

theorem ReplyRep.cleanValue {type : ParamType} {val raw : Val}
    (hval : AttrValue type val) (hraw : ReplyRep type val raw) :
    FreeipaProv.cleanValue type raw = .ok (some val) := by
  cases hraw with
  | listed => exact hval.cleanValue_same
  | wrapped htype =>
      have hsame := hval.cleanValue_same
      rw [cleanValue_scalar htype] at hsame ⊢
      cases hval with
      | listed => contradiction
      | scalar ha => exact hsame
  | letters hcase =>
      rename_i s b
      have hlower : pyLower s = if b then "true" else "false" := by
        rw [hcase]
        cases b <;> decide +kernel
      cases b with
      | true =>
          change convertScalar .bool (.str s) = _
          rw [convertScalar, hlower]
          rfl
      | false =>
          change convertScalar .bool (.str s) = _
          rw [convertScalar, hlower]
          rfl
  | decimal hint =>
      rename_i s i
      change (pyInt s).map (fun i => some (Val.int i)) = _
      rw [hint]
      rfl

theorem Blank.stepValue {type : ParamType} {raw : Option Val}
    (hraw : Blank type raw) :
    (∀ val, raw = some val → cleanValue type val = .ok none) := by
  rintro val rfl
  cases hraw with
  | unset => exact cleanValue_none type
  | empty => rfl

namespace AttrMap

variable {cls : ClientClass} (o : AttrMap cls)

theorem cleanValue_of_form {dirty : Dict String Val} (hform : o.Form dirty)
    {key : String} {type : ParamType} (htype : cls.paramType key = some type)
    {raw : Val} (hraw : dirty.lookup key = some raw) :
    cleanValue type raw = .ok (o.item.lookup key) := by
  have hkey := hform key type htype
  cases hval : o.item.lookup key with
  | some val =>
      rw [hval] at hkey
      obtain ⟨raw', hraw', hrep⟩ := hkey
      obtain rfl := Option.some.inj (hraw.symm.trans hraw')
      obtain ⟨type', htype', hvalue⟩ := o.typed key val hval
      obtain rfl := Option.some.inj (htype.symm.trans htype')
      rcases hrep with hrep | hrep
      · exact hrep.cleanValue hvalue
      · exact hrep.cleanValue hvalue
  | none =>
      rw [hval] at hkey
      exact hkey.stepValue raw hraw

/-- `clean` maps every form of an attribute map to the map itself. -/
theorem clean_form {dirty : Dict String Val} (hform : o.Form dirty) :
    ∃ item, cls.clean dirty = .ok item ∧
      ∀ key, item.lookup key = o.item.lookup key := by
  have hok : ∃ item, cls.clean dirty = .ok item := by
    refine Dict.traverse_isOk_iff.mpr fun key raw hraw => ?_
    cases htype : cls.paramType key with
    | none => exact ⟨none, rfl⟩
    | some type => exact ⟨_, o.cleanValue_of_form hform htype hraw⟩
  obtain ⟨item, hitem⟩ := hok
  refine ⟨item, hitem, fun key => ?_⟩
  rw [ClientClass.lookup_clean hitem, ClientClass.cleanedAt]
  cases htype : cls.paramType key with
  | none =>
      have hnone : o.item.lookup key = none := by
        by_contra hval
        obtain ⟨val, hval⟩ := Option.ne_none_iff_exists'.mp hval
        obtain ⟨type, htype', -⟩ := o.typed key val hval
        rw [htype] at htype'
        contradiction
      rw [hnone, Option.bind_eq_none_iff]
      exact fun _ _ => rfl
  | some type =>
      cases hraw : dirty.lookup key with
      | some raw =>
          rw [Option.bind_some, Option.bind_some,
            o.cleanValue_of_form hform htype hraw]
          rfl
      | none =>
          have hkey := hform key type htype
          cases hval : o.item.lookup key with
          | none => rfl
          | some val =>
              rw [hval] at hkey
              obtain ⟨raw, hraw', -⟩ := hkey
              rw [hraw] at hraw'
              contradiction

theorem form_of_lookup {item : Dict String Val}
    (hitem : ∀ key, item.lookup key = o.item.lookup key) : o.Form item := by
  intro key type htype
  rw [hitem]
  cases hval : o.item.lookup key with
  | some val => exact ⟨val, rfl, Or.inl (.same type val)⟩
  | none => exact .missing type

theorem clean_clean {item : Dict String Val}
    (hitem : ∀ key, item.lookup key = o.item.lookup key) :
    cls.clean item = .ok item := by
  have hform := o.form_of_lookup hitem
  refine Dict.traverse_eq_ok_iff.mpr ⟨fun key raw hraw => ?_, ?_⟩
  · cases htype : cls.paramType key with
    | none => exact ⟨none, rfl⟩
    | some type => exact ⟨_, o.cleanValue_of_form hform htype hraw⟩
  · symm
    apply Dict.filterMap_eq_self
    intro key val hval
    obtain ⟨type, htype, -⟩ := o.typed key val ((hitem key).symm.trans hval)
    rw [htype]
    change Dict.stepValue (cleanValue type val) = _
    rw [o.cleanValue_of_form hform htype hval, ← hitem key, hval]
    rfl

end AttrMap

/-! ## Diffs between forms -/

namespace ClientClass

variable {cls : ClientClass} {state : State} {change curr : Dict String Val}
  {changes : Changes} {key : String}

theorem leaves_of_lookup_eq (hstate : state ≠ .absent)
    (hok : cls.computeChanges state change curr = .ok changes)
    (hsame : change.lookup key = curr.lookup key)
    (hself : ∀ val, cls.scalar change key = some val → val.pyEq val = true) :
    changes.Leaves key := by
  have hmembers : cls.members change key = cls.members curr key := by
    rw [members, members, lookup_listSlice, lookup_listSlice, hsame]
  have hscalar : cls.scalar change key = cls.scalar curr key := by
    rw [scalar_eq, scalar_eq, hsame]
  apply leaves_of_settled hstate hok
  · intro a ha
    rwa [← hmembers]
  · intro _ a ha
    rwa [hmembers]
  · intro new hnew
    rw [← hscalar, hnew]
    exact hself new hnew
  · intro _ hnone
    rw [← hscalar, hnone]

end ClientClass

namespace AttrMap

variable {cls : ClientClass} (o : AttrMap cls) {item item' : Dict String Val}

theorem hashableLists (hitem : ∀ key, item.lookup key = o.item.lookup key) :
    cls.HashableLists item := by
  intro key val hval
  rw [ClientClass.lookup_listSlice] at hval
  split_ifs at hval with htype
  obtain ⟨type, htype', hvalue⟩ :=
    o.typed key val ((hitem key).symm.trans hval)
  obtain rfl := Option.some.inj (htype.symm.trans htype')
  cases hvalue with
  | listed => exact ⟨_, pySet_strs _⟩
  | scalar ha => exact absurd rfl (OfType.ne_list ha)

theorem pyEq_self {key : String} {val : Val}
    (hval : o.item.lookup key = some val)
    (htype : cls.paramType key ≠ some .list) : val.pyEq val = true := by
  obtain ⟨type, htype', hvalue⟩ := o.typed key val hval
  cases hvalue with
  | listed => exact absurd htype' htype
  | scalar => rw [Val.pyEq_atom, Atom.pyEq_refl]

theorem scalar_self (hitem : ∀ key, item.lookup key = o.item.lookup key)
    {key : String} {val : Val} (hval : cls.scalar item key = some val) :
    val.pyEq val = true := by
  rw [ClientClass.scalar_eq] at hval
  split_ifs at hval with htype
  rw [hitem] at hval
  exact o.pyEq_self hval htype

theorem diff_self (hitem : ∀ key, item.lookup key = o.item.lookup key)
    (hitem' : ∀ key, item'.lookup key = o.item.lookup key) {state : State}
    (hstate : state = .present ∨ state = .exact) :
    ∃ changes, cls.computeChanges state item item' = .ok changes ∧
      ∀ key, changes.Leaves key := by
  have hpresent := State.ne_absent hstate
  have hdeclared : ∀ key, o.item.lookup key ≠ none →
      key ∈ cls.argumentSpec.keys := by
    intro key hkey
    obtain ⟨val, hval⟩ := Option.ne_none_iff_exists'.mp hkey
    obtain ⟨type, htype, -⟩ := o.typed key val hval
    exact ClientClass.mem_argumentSpec_of_type htype
  have hkeys : ∀ key ∈ cls.indexedKeys state item item',
      key ∈ cls.argumentSpec.keys := by
    intro key hindexed
    rcases ClientClass.indexedKeys_subset hindexed with hkey | hkey
    · exact hdeclared key (hitem key ▸ hkey)
    · exact hdeclared key (hitem' key ▸ hkey)
  obtain ⟨changes, hok⟩ := (ClientClass.computeChanges_isOk_iff
    (o.hashableLists hitem) (o.hashableLists hitem')).mpr hkeys
  refine ⟨changes, hok, fun key => ?_⟩
  exact ClientClass.leaves_of_lookup_eq hpresent hok
    ((hitem key).trans (hitem' key).symm) fun val hval =>
      o.scalar_self hitem hval

/-- Every attribute with a default has a value. -/
def CoversDefaults : Prop :=
  ∀ key, cls.IsAttr key →
    (cls.argumentSpec.lookup key).bind ArgSpec.default ≠ none →
    o.item.lookup key ≠ none

/-- The desired and the current item of two forms have the same attributes. -/
theorem munge_forms {m : AnsibleModule} {response : Dict String Val}
    (hparams : o.Form m.params) (hresponse : o.Form response)
    (hexact : m.state = .exact → o.CoversDefaults) :
    ∃ desired current, cls.mungeModuleParams m = .ok desired ∧
      cls.mungeResponse response = .ok current ∧
      ∀ key, cls.IsAttr key → desired.lookup key = o.item.lookup key ∧
        current.lookup key = o.item.lookup key := by
  obtain ⟨item, hitem, hlookup⟩ := o.clean_form hparams
  obtain ⟨item', hitem', hlookup'⟩ := o.clean_form hresponse
  have hdesired : cls.mungeModuleParams m = .ok
      (cls.mungeStateExactAddDefaults m.state (cls.mungePopRequestKeys item)) := by
    rw [ClientClass.mungeModuleParams, hitem, ok_bind]
  have hcurrent : cls.mungeResponse response =
      .ok (cls.mungePopRequestKeys item') := by
    rw [ClientClass.mungeResponse, hitem', ok_bind]
  refine ⟨_, _, hdesired, hcurrent, fun key hkey => ⟨?_, ?_⟩⟩
  · rw [ClientClass.lookup_mungeStateExactAddDefaults,
      ClientClass.lookup_mungePopRequestKeys, if_neg hkey.2, hlookup]
    split_ifs with hstate
    · cases hval : o.item.lookup key with
      | some val => rfl
      | none =>
          rw [Option.none_or]
          by_contra hdefault
          exact hexact hstate key hkey hdefault hval
    · rw [Option.or_none]
  · rw [ClientClass.lookup_mungePopRequestKeys, if_neg hkey.2, hlookup']

end AttrMap

/-- `clean` maps every form of an attribute map to the map itself, and that to
itself again.  Hence the diff between two forms of one map is empty, also
between a task's parameters and a reply, where in state `exact` the map has to
give the attributes with a default. -/
theorem clean_eq_of_form {cls : ClientClass} (o : AttrMap cls)
    {dirty : Dict String Val} (hform : o.Form dirty) :
    ∃ item, cls.clean dirty = .ok item ∧
      (∀ key, item.lookup key = o.item.lookup key) ∧
      cls.clean item = .ok item ∧
      (∀ dirty', o.Form dirty' → ∃ item', cls.clean dirty' = .ok item' ∧
        ∀ state, state = .present ∨ state = .exact → ∃ changes,
          cls.computeChanges state item item' = .ok changes ∧
            ∀ key, changes.Leaves key) ∧
      ∀ m response, m.params = dirty → o.Form response →
        m.state = .present ∨ (m.state = .exact ∧ o.CoversDefaults) →
        ∃ desired current, cls.mungeModuleParams m = .ok desired ∧
          cls.mungeResponse response = .ok current ∧
          ∀ changes, cls.computeChanges m.state desired current =
            .ok changes → ∀ key, cls.IsAttr key → changes.Leaves key := by
  obtain ⟨item, hitem, hlookup⟩ := o.clean_form hform
  refine ⟨item, hitem, hlookup, o.clean_clean hlookup, ?_, ?_⟩
  · intro dirty' hform'
    obtain ⟨item', hitem', hlookup'⟩ := o.clean_form hform'
    exact ⟨item', hitem', fun state hstate =>
      o.diff_self hlookup hlookup' hstate⟩
  · rintro m response rfl hresponse hstate
    have hpresent : m.state ≠ .absent := by
      rcases hstate with hstate | ⟨hstate, -⟩ <;> simp [hstate]
    have hexact : m.state = .exact → o.CoversDefaults := by
      rcases hstate with hstate | ⟨-, hcovers⟩
      · simp [hstate]
      · exact fun _ => hcovers
    obtain ⟨desired, current, hdesired, hcurrent, hkeys⟩ :=
      o.munge_forms hform hresponse hexact
    refine ⟨desired, current, hdesired, hcurrent, fun changes hok key hkey => ?_⟩
    obtain ⟨hwant, hhave⟩ := hkeys key hkey
    refine ClientClass.leaves_of_lookup_eq hpresent hok
      (hwant.trans hhave.symm) fun val hval => ?_
    rw [ClientClass.scalar_eq] at hval
    split_ifs at hval with htype
    exact o.pyEq_self (hwant.symm.trans hval) htype

/-- A group, as a task or a reply may describe it. -/
def editorsMap : AttrMap groupClass where
  item := Dict.ofList
    [("gidnumber", .int 1205), ("nonposix", .bool false),
     ("member_user", .list [.str "pinky"])]
  typed := by
    intro key val hval
    replace hval := Dict.mem_of_lookup_ofList hval
    simp only [List.mem_cons, Prod.mk.injEq, List.not_mem_nil, or_false]
      at hval
    rcases hval with ⟨rfl, rfl⟩ | ⟨rfl, rfl⟩ | ⟨rfl, rfl⟩
    · exact ⟨.int, rfl, .scalar trivial⟩
    · exact ⟨.bool, rfl, .scalar trivial⟩
    · have hvalue : AttrValue .list (.list (["pinky"].map .str)) :=
        .listed (by simp)
      exact ⟨.list, rfl, hvalue⟩

/-- The group in a reply. -/
def editorsReply : Dict String Val := Dict.ofList
  [("dn", .str "cn=editors,cn=groups,dc=example,dc=com"),
   ("gidnumber", .list [.str "1205"]), ("nonposix", .list [.str "False"]),
   ("member_user", .list [.str "pinky"]), ("member_group", .list [])]

theorem editorsReply_form : editorsMap.Form editorsReply := by
  intro key type htype
  have hkey : key ∈ ["cn", "description", "gidnumber", "nonposix", "external",
      "member_group", "member_user"] :=
    ClientClass.mem_kwArgs_of_type htype
  simp only [List.mem_cons, List.not_mem_nil, or_false] at hkey
  rcases hkey with rfl | rfl | rfl | rfl | rfl | rfl | rfl
  · exact .missing type
  · exact .missing type
  · obtain rfl : ParamType.int = type := Option.some.inj htype
    exact ⟨_, rfl, Or.inr (.decimal rfl)⟩
  · obtain rfl : ParamType.bool = type := Option.some.inj htype
    exact ⟨_, rfl, Or.inr (.letters (by decide))⟩
  · exact .missing type
  · obtain rfl : ParamType.list = type := Option.some.inj htype
    exact .empty
  · obtain rfl : ParamType.list = type := Option.some.inj htype
    exact ⟨_, rfl, Or.inr (.listed _)⟩

theorem editorsReply_clean :
    ∃ item, groupClass.clean editorsReply = .ok item ∧
      ∀ key, item.lookup key = editorsMap.item.lookup key := by
  obtain ⟨item, hitem, hlookup, -⟩ :=
    clean_eq_of_form editorsMap editorsReply_form
  exact ⟨item, hitem, hlookup⟩

end FreeipaProv
