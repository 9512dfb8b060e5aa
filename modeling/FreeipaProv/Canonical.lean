import FreeipaProv.Find

/-!
# Canonical items

What the cleaned module parameters and the cleaned find reply hold under each
attribute: the desired and the current item of the diff.  Both have only
declared attributes that are not request keys, apart from the defaults of the
standard parameters that state `exact` adds to the desired item.
-/

namespace FreeipaProv

open Fallible

/-! ## Values -/

theorem cleanValue_list_eq_ok {val val' : Val}
    (hok : cleanValue .list val = .ok (some val')) :
    ∃ v vs, val' = .list (v :: vs) ∧ v ≠ .none ∧ wrapList val = v :: vs := by
  simp only [cleanValue] at hok
  split at hok
  · simp at hok
  · simp at hok
  · rename_i hnil hnone
    simp only [Except.ok.injEq, Option.some.injEq] at hok
    cases hvals : wrapList val with
    | nil => exact absurd hvals hnil
    | cons v vs =>
        refine ⟨v, vs, by rw [← hok, hvals], ?_, rfl⟩
        rintro rfl
        exact hnone vs hvals

theorem cleanValue_scalar {type : ParamType} (htype : type ≠ .list)
    (val : Val) :
    cleanValue type val = unwrapScalar val >>= convertScalar type := by
  cases type <;> first | rfl | contradiction

theorem convertScalar_ne_none {type : ParamType} {val val' : Val}
    (hok : convertScalar type val = .ok (some val')) : val' ≠ .none := by
  rintro rfl
  unfold convertScalar at hok
  split at hok
  · simp at hok
  · split_ifs at hok <;> simp at hok
  · rename_i s
    cases hint : pyInt s <;> simp [hint, Except.map] at hok
  · rename_i hval _ _
    simp only [Except.ok.injEq, Option.some.injEq] at hok
    exact hval hok

theorem cleanValue_ne_none {type : ParamType} {val val' : Val}
    (hok : cleanValue type val = .ok (some val')) : val' ≠ .none := by
  by_cases htype : type = .list
  · subst htype
    obtain ⟨v, vs, rfl, -, -⟩ := cleanValue_list_eq_ok hok
    simp
  · rw [cleanValue_scalar htype] at hok
    obtain ⟨scalar, -, hconvert⟩ := bind_eq_ok_iff.mp hok
    exact convertScalar_ne_none hconvert

namespace ClientClass

variable (cls : ClientClass)

/-- A declared attribute that is not a request key. -/
def IsAttr (key : String) : Prop :=
  cls.paramType key ≠ none ∧ key ∉ cls.paramKeys

instance (key : String) : Decidable (cls.IsAttr key) :=
  inferInstanceAs (Decidable (_ ∧ _))

variable {cls} in
theorem mem_kwArgs_of_type {key : String} {type : ParamType}
    (htype : cls.paramType key = some type) : key ∈ cls.kwArgs.keys := by
  obtain ⟨spec, hspec, -⟩ := Option.map_eq_some_iff.mp htype
  exact Dict.fst_mem_keys.mpr ⟨spec, hspec⟩

variable {cls} in
theorem IsAttr.exists_spec {key : String} (hattr : cls.IsAttr key) :
    ∃ spec, cls.kwArgs.lookup key = some spec := by
  simpa [paramType, Option.ne_none_iff_exists'] using hattr.1

variable {cls} in
theorem IsAttr.mem_kwArgs {key : String} (hattr : cls.IsAttr key) :
    key ∈ cls.kwArgs.keys :=
  Dict.fst_mem_keys.mpr hattr.exists_spec

/-- The value `clean` keeps for an attribute. -/
def cleanedAt (dirty : Dict String Val) (key : String) : Option Val :=
  (dirty.lookup key).bind fun val =>
    (cls.paramType key).bind fun type => Dict.stepValue (cleanValue type val)

variable {cls}

theorem lookup_clean {dirty item : Dict String Val}
    (hok : cls.clean dirty = .ok item) (key : String) :
    item.lookup key = cls.cleanedAt dirty key := by
  rw [Dict.lookup_of_traverse_eq_ok hok, cleanedAt]
  congr 1
  funext val
  cases cls.paramType key <;> rfl

@[simp] theorem lookup_mungePopRequestKeys (item : Dict String Val)
    (key : String) :
    (cls.mungePopRequestKeys item).lookup key =
      if key ∈ cls.paramKeys then none else item.lookup key := by
  rw [mungePopRequestKeys, Dict.lookup_filterMap]
  split <;> cases item.lookup key <;> simp

theorem lookup_mungeStateExactAddDefaults (state : State)
    (item : Dict String Val) (key : String) :
    (cls.mungeStateExactAddDefaults state item).lookup key =
      (item.lookup key).or
        (if state = .exact then
          (cls.argumentSpec.lookup key).bind ArgSpec.default
        else none) := by
  unfold mungeStateExactAddDefaults
  split
  · rw [Dict.lookup_union, Dict.lookup_filterMap]
  · simp

/-- The desired item of `IPAClient.munge_module_params`. -/
theorem lookup_mungeModuleParams {m : AnsibleModule}
    {desired : Dict String Val} (hok : cls.mungeModuleParams m = .ok desired)
    (key : String) :
    desired.lookup key =
      (if key ∈ cls.paramKeys then none
        else cls.cleanedAt m.params key).or
      (if m.state = .exact then
        (cls.argumentSpec.lookup key).bind ArgSpec.default
      else none) := by
  obtain ⟨item, hitem, hok⟩ := bind_eq_ok_iff.mp hok
  simp only [Except.ok.injEq] at hok
  subst hok
  rw [lookup_mungeStateExactAddDefaults, lookup_mungePopRequestKeys,
    lookup_clean hitem]

theorem lookup_mungeResponse {response curr : Dict String Val}
    (hok : cls.mungeResponse response = .ok curr) (key : String) :
    curr.lookup key =
      if key ∈ cls.paramKeys then none else cls.cleanedAt response key := by
  obtain ⟨item, hitem, hok⟩ := bind_eq_ok_iff.mp hok
  simp only [Except.ok.injEq] at hok
  subst hok
  rw [lookup_mungePopRequestKeys, lookup_clean hitem]

theorem cleanedAt_eq_some {dirty : Dict String Val} {key : String}
    {val : Val} (hval : cls.cleanedAt dirty key = some val) :
    ∃ raw type, dirty.lookup key = some raw ∧ cls.paramType key = some type ∧
      cleanValue type raw = .ok (some val) := by
  obtain ⟨raw, hraw, hval⟩ := Option.bind_eq_some_iff.mp hval
  obtain ⟨type, htype, hval⟩ := Option.bind_eq_some_iff.mp hval
  refine ⟨raw, type, hraw, htype, ?_⟩
  cases hstep : cleanValue type raw with
  | error err => simp [hstep, Dict.stepValue] at hval
  | ok step => simpa [hstep, Dict.stepValue] using hval

theorem isAttr_of_lookup_mungeResponse {response curr : Dict String Val}
    (hok : cls.mungeResponse response = .ok curr) {key : String} {val : Val}
    (hval : curr.lookup key = some val) : cls.IsAttr key := by
  rw [lookup_mungeResponse hok] at hval
  split at hval
  · contradiction
  · rename_i hkey
    obtain ⟨raw, type, -, htype, -⟩ := cleanedAt_eq_some hval
    exact ⟨by simp [htype], hkey⟩

theorem members_eq_nil {params : Dict String Val} {key : String}
    (hnone : params.lookup key = none) : cls.members params key = [] := by
  have hslice : (cls.listSlice params).lookup key = none := by
    rw [listSlice, Dict.lookup_filterMap, hnone]
    rfl
  simp [members, hslice, pySet, Val.iter, hashAll, pyDedup]

theorem scalar_eq_none {params : Dict String Val} {key : String}
    (hnone : params.lookup key = none) : cls.scalar params key = none := by
  rw [scalar_eq, hnone]
  split <;> rfl

theorem members_eq_nil_of_scalar {params : Dict String Val} {key : String}
    (htype : cls.paramType key ≠ some .list) :
    cls.members params key = [] := by
  have hslice : (cls.listSlice params).lookup key = none := by
    rw [listSlice, Dict.lookup_filterMap]
    cases params.lookup key <;> simp [htype]
  simp [members, hslice, pySet, Val.iter, hashAll, pyDedup]

end ClientClass

/-! ## Parameters of a task -/

theorem ClientClass.lookup_ansibleModule_params (cls : ClientClass) (t : Task)
    (key : String) :
    (cls.ansibleModule t).params.lookup key =
      (t.given.lookup key).or
        ((cls.argumentSpec.lookup key).map fun spec =>
          spec.default.getD .none) := by
  rw [ansibleModule, Dict.lookup_union, Dict.lookup_filterMap]
  cases cls.argumentSpec.lookup key <;> rfl

theorem ClientClass.lookup_argumentSpec {cls : ClientClass} {key : String}
    {spec : ArgSpec} (hspec : cls.kwArgs.lookup key = some spec) :
    cls.argumentSpec.lookup key = some spec := by
  rw [argumentSpec, Dict.lookup_union, hspec, Option.some_or]

theorem cleanValue_none (type : ParamType) :
    cleanValue type .none = .ok none := by
  cases type <;> rfl

/-- The default is of the declared type. -/
def ArgSpec.isCanonical (spec : ArgSpec) : Bool :=
  match spec.type, spec.default with
  | _, none => true
  | .str, some (.str _) => true
  | .int, some (.int _) => true
  | .bool, some (.bool _) => true
  | _, _ => false

theorem argumentSpec_isCanonical (cl : Client) :
    ∀ key ∈ cl.cls.argumentSpec.keys,
      (cl.cls.argumentSpec.lookup key).all ArgSpec.isCanonical = true := by
  cases cl <;> decide +kernel

/-- `clean` keeps a default as it is. -/
theorem cleanValue_default {spec : ArgSpec} (hspec : spec.isCanonical = true)
    {val : Val} (hval : spec.default = some val) :
    cleanValue spec.type val = .ok (some val) := by
  unfold ArgSpec.isCanonical at hspec
  rw [hval] at hspec
  split at hspec
  · contradiction
  · rename_i htype heq
    rw [htype, Option.some.inj heq]
    rfl
  · rename_i htype heq
    rw [htype, Option.some.inj heq]
    rfl
  · rename_i htype heq
    rw [htype, Option.some.inj heq]
    rfl
  · contradiction

/-! ## The desired item of a client -/

/-- The keys whose desired value a subclass computes itself: the enable flag
in the enabling states, and the principal of a certificate. -/
def Client.Overrides (cl : Client) (state : State) (key : String) : Prop :=
  (cl.cls.enablekey = some key ∧ (state = .enabled ∨ state = .disabled)) ∨
    (cl = .cert ∧ key = "principal")

theorem lookup_mungeEnableParams {cls : ClientClass} {m : AnsibleModule}
    {desired : Dict String Val} (hok : cls.mungeEnableParams m = .ok desired)
    {key : String}
    (hkey : ¬(cls.enablekey = some key ∧
      (m.state = .enabled ∨ m.state = .disabled))) :
    ∃ item, cls.mungeModuleParams m = .ok item ∧
      desired.lookup key = item.lookup key := by
  obtain ⟨item, hitem, hok⟩ := bind_eq_ok_iff.mp hok
  refine ⟨item, hitem, ?_⟩
  split at hok
  · rename_i flag hflag hstate
    have hne : key ≠ flag := by
      rintro rfl
      exact hkey ⟨hflag, Or.inl hstate⟩
    simp only [Except.ok.injEq] at hok
    rw [← hok, AList.lookup_insert_ne hne]
  · rename_i flag hflag hstate
    have hne : key ≠ flag := by
      rintro rfl
      exact hkey ⟨hflag, Or.inr hstate⟩
    simp only [Except.ok.injEq] at hok
    rw [← hok, AList.lookup_insert_ne hne]
  · simp only [Except.ok.injEq] at hok
    rw [hok]

/-- The flag the enabling states ask for. -/
theorem lookup_mungeEnableParams_flag {cls : ClientClass} {m : AnsibleModule}
    {desired : Dict String Val} (hok : cls.mungeEnableParams m = .ok desired)
    {flag : String} (hflag : cls.enablekey = some flag) :
    (m.state = .enabled →
      desired.lookup flag = some (.bool (!cls.enablekeySenseInverted))) ∧
    (m.state = .disabled →
      desired.lookup flag = some (.bool cls.enablekeySenseInverted)) := by
  obtain ⟨item, hitem, hok⟩ := bind_eq_ok_iff.mp hok
  constructor
  · intro hstate
    simp only [hflag, hstate, Except.ok.injEq] at hok
    rw [← hok, AList.lookup_insert]
  · intro hstate
    simp only [hflag, hstate, Except.ok.injEq] at hok
    rw [← hok, AList.lookup_insert]

theorem Client.lookup_mungeModuleParams {cl : Client} {m : AnsibleModule}
    {desired : Dict String Val} (hok : cl.mungeModuleParams m = .ok desired)
    {key : String} (hkey : ¬cl.Overrides m.state key) :
    desired.lookup key =
      (if key ∈ cl.cls.paramKeys then none
        else cl.cls.cleanedAt m.params key).or
      (if m.state = .exact then
        (cl.cls.argumentSpec.lookup key).bind ArgSpec.default
      else none) := by
  have hflag : ¬(cl.cls.enablekey = some key ∧
      (m.state = .enabled ∨ m.state = .disabled)) := fun h =>
    hkey (Or.inl h)
  cases cl with
  | user | caacl | dnszone =>
      obtain ⟨item, hitem, heq⟩ := lookup_mungeEnableParams hok hflag
      rw [heq, ClientClass.lookup_mungeModuleParams hitem]
  | cert =>
      obtain ⟨item, hitem, hok⟩ := bind_eq_ok_iff.mp hok
      obtain ⟨subject, -, hok⟩ := bind_eq_ok_iff.mp hok
      obtain ⟨principal, -, hok⟩ := bind_eq_ok_iff.mp hok
      have hne : key ≠ "principal" := fun h => hkey (Or.inr ⟨rfl, h⟩)
      simp only [Except.ok.injEq] at hok
      rw [← hok, AList.lookup_insert_ne hne,
        ClientClass.lookup_mungeModuleParams hitem]
  | group | service | dnsrecord | ca =>
      exact ClientClass.lookup_mungeModuleParams hok key

/-! ## The current item of a client -/

/-- The reply object under the parameter names of the client. -/
def Client.apiAttributes (cl : Client) (obj : Dict String Val) :
    Dict String Val :=
  match cl with
  | .caacl => caaclMungeResponseKeys obj
  | _ => obj

theorem Client.mungeResponse_eq {cl : Client} (hcert : cl ≠ .cert)
    (huser : cl ≠ .user) (hservice : cl ≠ .service) (m : AnsibleModule)
    (obj : Dict String Val) :
    cl.mungeResponse m obj = cl.cls.mungeResponse (cl.apiAttributes obj) := by
  cases cl <;> first | rfl | contradiction

@[simp] theorem Client.mungeResponse_empty (cl : Client) (m : AnsibleModule) :
    cl.mungeResponse m ∅ = .ok ∅ := by
  cases cl <;> rfl

theorem lookup_serviceMungeResponseUsercertificate
    (response : Dict String Val) {key : String} (hkey : key ≠ "usercertificate") :
    (serviceMungeResponseUsercertificate response).lookup key =
      response.lookup key := by
  unfold serviceMungeResponseUsercertificate
  split
  · rfl
  · rw [AList.lookup_insert_ne hkey]

/-- Outside the principal names, `munge_response_krbprincipalname` changes
nothing. -/
theorem lookup_serviceMungeResponseKrbprincipalname {m : AnsibleModule}
    {response munged : Dict String Val}
    (hok : serviceMungeResponseKrbprincipalname m response = .ok munged)
    {key : String} (hkey : key ≠ "krbprincipalname") :
    munged.lookup key = response.lookup key := by
  unfold serviceMungeResponseKrbprincipalname at hok
  split at hok
  · simp only [Except.ok.injEq] at hok
    rw [hok]
  · obtain ⟨vals, -, hok⟩ := bind_eq_ok_iff.mp hok
    dsimp only at hok
    split_ifs at hok
    · simp only [Except.ok.injEq] at hok
      rw [← hok, AList.lookup_erase_ne hkey]
    · simp only [Except.ok.injEq] at hok
      rw [← hok, AList.lookup_insert_ne hkey]

/-- Outside the two attributes it munges, the service client's current item
is the cleaned reply. -/
theorem lookup_serviceMungeResponse {m : AnsibleModule}
    {response curr : Dict String Val}
    (hok : serviceMungeResponse m response = .ok curr) {key : String}
    (hcert : key ≠ "usercertificate") (hprinc : key ≠ "krbprincipalname") :
    ∃ item, serviceClass.mungeResponse response = .ok item ∧
      curr.lookup key = item.lookup key := by
  obtain ⟨item, hitem, hok⟩ := bind_eq_ok_iff.mp hok
  refine ⟨item, hitem, ?_⟩
  rw [lookup_serviceMungeResponseKrbprincipalname hok hprinc,
    lookup_serviceMungeResponseUsercertificate item hcert]

theorem lookup_userMungeResponseUsercertificate
    {response certs : Dict String Val}
    (hok : userMungeResponseUsercertificate response = .ok certs)
    {key : String} (hkey : key ≠ "usercertificate") :
    certs.lookup key = response.lookup key := by
  unfold userMungeResponseUsercertificate at hok
  split at hok
  · rw [Except.ok.inj hok]
  · obtain ⟨vals, -, hok⟩ := bind_eq_ok_iff.mp hok
    rw [← Except.ok.inj hok, AList.lookup_insert_ne hkey]

theorem lookup_userMungeResponseKrbprincipalname
    {response munged : Dict String Val}
    (hok : userMungeResponseKrbprincipalname response = .ok munged)
    {key : String} (hkey : key ≠ "krbprincipalname") :
    munged.lookup key = response.lookup key := by
  unfold userMungeResponseKrbprincipalname at hok
  dsimp only at hok
  split at hok
  · rw [Except.ok.inj hok]
  · obtain ⟨aliases, -, hok⟩ := bind_eq_ok_iff.mp hok
    rw [← Except.ok.inj hok, AList.lookup_insert_ne hkey]
  · split at hok
    · rw [Except.ok.inj hok]
    · split_ifs at hok
      rw [Except.ok.inj hok]
    · contradiction
  · contradiction

/-- Outside the two attributes it munges, the user client's current item is
the cleaned reply. -/
theorem lookup_userMungeResponse {response curr : Dict String Val}
    (hok : userMungeResponse response = .ok curr) {key : String}
    (hcert : key ≠ "usercertificate") (hprinc : key ≠ "krbprincipalname") :
    ∃ munged, userClass.mungeResponse munged = .ok curr ∧
      munged.lookup key = response.lookup key := by
  obtain ⟨certs, hcerts, hok⟩ := bind_eq_ok_iff.mp hok
  obtain ⟨munged, hmunged, hok⟩ := bind_eq_ok_iff.mp hok
  refine ⟨munged, hok, ?_⟩
  rw [lookup_userMungeResponseKrbprincipalname hmunged hprinc,
    lookup_userMungeResponseUsercertificate hcerts hcert]

/-- Outside the attributes a client munges, its current item is the cleaned
reply. -/
theorem Client.lookup_mungeResponse {cl : Client} (hcl : cl ≠ .cert)
    {m : AnsibleModule} {response curr : Dict String Val}
    (hok : cl.mungeResponse m response = .ok curr) {key : String}
    (hcert : key ≠ "usercertificate") (hprinc : key ≠ "krbprincipalname") :
    curr.lookup key =
      if key ∈ cl.cls.paramKeys then none
      else cl.cls.cleanedAt (cl.apiAttributes response) key := by
  cases cl with
  | user =>
      obtain ⟨munged, hmunged, heq⟩ :=
        lookup_userMungeResponse hok hcert hprinc
      rw [ClientClass.lookup_mungeResponse hmunged, ClientClass.cleanedAt, heq]
      rfl
  | service =>
      obtain ⟨item, hitem, heq⟩ :=
        lookup_serviceMungeResponse hok hcert hprinc
      rw [heq, ClientClass.lookup_mungeResponse hitem]
      rfl
  | cert => contradiction
  | group | caacl | dnszone | dnsrecord | ca =>
      exact ClientClass.lookup_mungeResponse hok key

/-- Apart from certificates, the current item has declared attributes
only. -/
theorem Client.isAttr_of_lookup_mungeResponse {cl : Client}
    (hcert : cl ≠ .cert) {m : AnsibleModule} {response curr : Dict String Val}
    (hok : cl.mungeResponse m response = .ok curr) {key : String} {val : Val}
    (hval : curr.lookup key = some val) : cl.cls.IsAttr key := by
  cases cl with
  | user =>
      obtain ⟨certs, -, hok⟩ := bind_eq_ok_iff.mp hok
      obtain ⟨princs, -, hok⟩ := bind_eq_ok_iff.mp hok
      exact ClientClass.isAttr_of_lookup_mungeResponse hok hval
  | service =>
      by_cases hkeyCert : key = "usercertificate"
      · subst hkeyCert
        decide
      by_cases hkeyPrinc : key = "krbprincipalname"
      · subst hkeyPrinc
        decide
      obtain ⟨item, hitem, heq⟩ :=
        lookup_serviceMungeResponse hok hkeyCert hkeyPrinc
      rw [heq] at hval
      exact ClientClass.isAttr_of_lookup_mungeResponse hitem hval
  | cert => contradiction
  | caacl => exact ClientClass.isAttr_of_lookup_mungeResponse hok hval
  | group | dnszone | dnsrecord | ca =>
      exact ClientClass.isAttr_of_lookup_mungeResponse hok hval

/-! ## The steps of `find` -/

/-- The steps of a `find` that succeeds, with the object it selects. -/
structure FindSteps (cl : Client) (m : AnsibleModule) (reply : FindReply)
    (found : Found) (obj : Dict String Val) : Prop where
  desired : cl.mungeModuleParams m = .ok found.canonParams
  request : ∃ request, cl.findRequest m = .ok request
  selected : cl.findResult m reply = .ok obj
  current : cl.mungeResponse m obj = .ok found.responseCleaned
  diffs : cl.computeChanges m.state found.canonParams found.responseCleaned =
    .ok found.diffs
  objectExists : found.objectExists = reply.objectExists
  response : found.response = cl.responseAfterMunge obj

theorem Client.find_steps {cl : Client} {m : AnsibleModule}
    {reply : FindReply} {found : Found}
    (hfind : cl.find m reply = .ok found) :
    ∃ obj, FindSteps cl m reply found obj := by
  obtain ⟨desired, hdesired, hfind⟩ := bind_eq_ok_iff.mp hfind
  obtain ⟨request, hrequest, hfind⟩ := bind_eq_ok_iff.mp hfind
  obtain ⟨obj, hobj, hfind⟩ := bind_eq_ok_iff.mp hfind
  obtain ⟨current, hcurrent, hfind⟩ := bind_eq_ok_iff.mp hfind
  obtain ⟨diffs, hdiffs, hfind⟩ := bind_eq_ok_iff.mp hfind
  simp only [Except.ok.injEq] at hfind
  subst hfind
  exact ⟨obj, hdesired, ⟨request, hrequest⟩, hobj, hcurrent, hdiffs, rfl, rfl⟩

theorem Client.find_of_steps {cl : Client} {m : AnsibleModule}
    {reply : FindReply} {desired obj current : Dict String Val}
    {request : Request} {diffs : Changes}
    (hdesired : cl.mungeModuleParams m = .ok desired)
    (hrequest : cl.findRequest m = .ok request)
    (hobj : cl.findResult m reply = .ok obj)
    (hcurrent : cl.mungeResponse m obj = .ok current)
    (hdiffs : cl.computeChanges m.state desired current = .ok diffs) :
    cl.find m reply = .ok {
      canonParams := desired
      objectExists := reply.objectExists
      response := cl.responseAfterMunge obj
      responseCleaned := current
      diffs } := by
  simp [Client.find, hdesired, hrequest, hobj, hcurrent, hdiffs]

/-- The objects of the reply that the find filter keeps. -/
def Client.kept (cl : Client) (m : AnsibleModule) (reply : FindReply) :
    Except Failure (List (Dict String Val)) :=
  Fallible.filter (cl.findFilter m) reply.result

theorem Client.findResult_eq_ok_iff {cl : Client} {m : AnsibleModule}
    {reply : FindReply} {obj : Dict String Val} :
    cl.findResult m reply = .ok obj ↔
      ∃ kept, cl.kept m reply = .ok kept ∧ kept.getLast?.getD ∅ = obj := by
  simp only [Client.findResult, Client.kept, bind_eq_ok_iff, Except.ok.injEq]

theorem FindReply.objectExists_eq_false_iff {reply : FindReply} :
    reply.objectExists = false ↔ reply.result = [] := by
  simp [FindReply.objectExists, reply.count_eq, Nat.pos_iff_ne_zero]

theorem Client.findResult_of_not_objectExists {cl : Client}
    {m : AnsibleModule} {reply : FindReply}
    (hnone : reply.objectExists = false) : cl.findResult m reply = .ok ∅ := by
  rw [FindReply.objectExists_eq_false_iff] at hnone
  rw [Client.findResult_eq_ok_iff]
  exact ⟨[], by rw [Client.kept, hnone]; rfl, rfl⟩

/-- The diff of a client other than the certificate client, or outside state
`absent`, is that of its class. -/
theorem Client.computeChanges_eq {cl : Client} {state : State}
    {change curr : Dict String Val} {changes : Changes}
    (hok : cl.computeChanges state change curr = .ok changes)
    (hcert : ¬(cl = .cert ∧ state = .absent)) :
    cl.cls.computeChanges state change curr = .ok changes := by
  obtain ⟨changes', hchanges, hok⟩ := bind_eq_ok_iff.mp hok
  rw [hchanges]
  split at hok
  · exact absurd ⟨rfl, rfl⟩ hcert
  · exact hok

theorem Client.computeChanges_of_class {cl : Client} {state : State}
    {change curr : Dict String Val} {changes : Changes}
    (hok : cl.cls.computeChanges state change curr = .ok changes)
    (hcert : cl ≠ .cert) : cl.computeChanges state change curr = .ok changes := by
  simp only [Client.computeChanges, hok, ok_bind]
  split
  · contradiction
  · rfl

end FreeipaProv
