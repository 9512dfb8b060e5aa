import FreeipaProv.Principals
import FreeipaProv.Removal

/-!
# What a find takes in

A find fails where the parameters of the task or the object of the reply do
not have the shape its steps expect: a scalar that is an empty list, a number
that is none, a member of a list that cannot be put into a set, a certificate
without a status.  Where none of this happens, it can still fail in the diff,
which reads the declarations of the attributes it compares.
-/

namespace FreeipaProv

open Fallible

/-! ## Values -/

/-- `clean` takes the value in, and the members it keeps of a list can be put
into a set. -/
def ReadableValue (type : ParamType) (val : Val) : Prop :=
  ∃ cleaned, cleanValue type val = .ok cleaned ∧
    (type = .list → ∀ vs, cleaned = some (.list vs) →
      ∃ atoms, hashAll vs = some atoms)

theorem hashAll_strs (ss : List String) :
    hashAll (ss.map .str) = some (ss.map .str) := by
  rw [hashAll_eq_some_iff]
  simp

theorem readableValue_strs (ss : List String) :
    ReadableValue .list (.list (ss.map .str)) := by
  refine ⟨_, cleanValue_list_strs ss, fun _ vs hvs => ?_⟩
  split_ifs at hvs
  obtain rfl : ss.map .str = vs := by simpa using hvs
  exact ⟨_, hashAll_strs ss⟩

theorem ClientClass.readable_iff {cls : ClientClass}
    {obj : Dict String Val} :
    (∃ current, cls.mungeResponse obj = .ok current ∧
      cls.HashableLists current) ↔ cls.Readable obj := by
  constructor
  · rintro ⟨current, hcurrent, hlists⟩
    exact readable_of_hashableLists hcurrent hlists
  · intro hreadable
    obtain ⟨item, hclean⟩ := clean_isOk_of_readable hreadable
    have hcurrent : cls.mungeResponse obj =
        .ok (cls.mungePopRequestKeys item) := by
      simp [mungeResponse, hclean]
    exact ⟨_, hcurrent, hashableLists_of_readable hreadable hcurrent⟩

/-! ## The object of a user -/

/-- The principals the user client strips of their realms. -/
def aliasesLeft (canonical : Val) (princs : List Val) : List Val :=
  match canonical with
  | .none => princs
  | canonical => removeFirst canonical princs

/-- The principal names of a reply: a list of strings, apart from the
canonical one; or an empty string, with a canonical name that is no more than
missing. -/
def UserPrincipals (canonical raw : Val) : Prop :=
  (∃ princs, raw = .list princs ∧
    ∀ v ∈ aliasesLeft canonical princs, ∃ s, v = .str s) ∨
  (raw = .str "" ∧
    (canonical = .none ∨ ∃ s, s ≠ "" ∧ canonical = .str s))

theorem mapM_krbprincipalAliasVal_isOk {vs aliases : List Val}
    (hok : vs.mapM krbprincipalAliasVal = .ok aliases) :
    ∀ v ∈ vs, ∃ s, v = .str s := by
  induction vs generalizing aliases with
  | nil => simp
  | cons v rest ih =>
      rw [List.mapM_cons] at hok
      obtain ⟨princ, hprinc, hok⟩ := bind_eq_ok_iff.mp hok
      obtain ⟨others, hothers, -⟩ := bind_eq_ok_iff.mp hok
      intro w hw
      rcases List.mem_cons.mp hw with rfl | hrest
      · unfold krbprincipalAliasVal at hprinc
        split at hprinc
        · exact ⟨_, rfl⟩
        · contradiction
      · exact ih hothers w hrest

theorem userMungeResponseKrbprincipalname_isOk {obj : Dict String Val}
    (hprincs : ∀ raw, obj.lookup "krbprincipalname" = some raw →
      UserPrincipals ((obj.lookup "krbcanonicalname").getD .none) raw) :
    ∃ munged, userMungeResponseKrbprincipalname obj = .ok munged ∧
      (∀ key, key ≠ "krbprincipalname" →
        munged.lookup key = obj.lookup key) ∧
      ∀ raw, munged.lookup "krbprincipalname" = some raw →
        ReadableValue .list raw := by
  unfold userMungeResponseKrbprincipalname
  cases hraw : obj.lookup "krbprincipalname" with
  | none =>
      exact ⟨obj, rfl, fun _ _ => rfl, fun raw h => by simp [hraw] at h⟩
  | some raw =>
      rcases hprincs raw hraw with ⟨princs, rfl, hstrs⟩ | ⟨rfl, hcanonical⟩
      · obtain ⟨ss, hss⟩ := strs_of_forall hstrs
        refine ⟨obj.insert "krbprincipalname"
          (.list ((ss.map krbprincipalAlias).map .str)), ?_,
          fun key hkey => AList.lookup_insert_ne hkey, fun raw h => ?_⟩
        · change (do
            let aliases ← (aliasesLeft _ princs).mapM krbprincipalAliasVal
            _) = _
          rw [hss, mapM_krbprincipalAliasVal, ok_bind]
        · rw [AList.lookup_insert] at h
          rw [← Option.some.inj h]
          exact readableValue_strs _
      · refine ⟨obj, ?_, fun _ _ => rfl, fun raw h => ?_⟩
        · rcases hcanonical with hnone | ⟨s, hs, hstr⟩
          · simp [hnone]
          · simp [hstr, hs]
        · obtain rfl := Option.some.inj (hraw.symm.trans h)
          exact ⟨_, rfl, fun _ vs hvs => by
            obtain rfl : [Val.str ""] = vs := by simpa using hvs
            exact ⟨_, hashAll_strs [""]⟩⟩

theorem userPrincipals_of_isOk {obj munged : Dict String Val}
    (hok : userMungeResponseKrbprincipalname obj = .ok munged) {raw : Val}
    (hraw : obj.lookup "krbprincipalname" = some raw) :
    UserPrincipals ((obj.lookup "krbcanonicalname").getD .none) raw := by
  unfold userMungeResponseKrbprincipalname at hok
  rw [hraw] at hok
  dsimp only at hok
  split at hok
  · contradiction
  · rename_i princs heq
    obtain rfl := Option.some.inj heq
    obtain ⟨aliases, haliases, -⟩ := bind_eq_ok_iff.mp hok
    exact Or.inl ⟨princs, rfl, mapM_krbprincipalAliasVal_isOk haliases⟩
  · rename_i heq
    obtain rfl := Option.some.inj heq
    refine Or.inr ⟨rfl, ?_⟩
    split at hok
    · rename_i hcanonical
      exact Or.inl hcanonical
    · rename_i s hcanonical
      split_ifs at hok with hs
      exact Or.inr ⟨s, hs, hcanonical⟩
    · contradiction
  · contradiction

/-- The object of a reply that the user client takes in. -/
structure UserReadable (obj : Dict String Val) : Prop where
  certs : ∀ raw, obj.lookup "usercertificate" = some raw →
    ∃ vs, raw.iter = .ok vs ∧
      ReadableValue .list (.list (vs.map unwrapBase64))
  principals : ∀ raw, obj.lookup "krbprincipalname" = some raw →
    UserPrincipals ((obj.lookup "krbcanonicalname").getD .none) raw
  others : ∀ key val type, key ≠ "usercertificate" →
    key ≠ "krbprincipalname" → obj.lookup key = some val →
    userClass.paramType key = some type → ReadableValue type val

theorem Client.not_param_of_list (cl : Client) {key : String}
    (htype : cl.cls.paramType key = some .list) : key ∉ cl.cls.paramKeys := by
  have hattr : cl.ListAttr key := Client.listAttr_of_type htype
  exact hattr.1.1.2

theorem Client.readableValue (cl : Client) {obj : Dict String Val}
    (hreadable : cl.cls.Readable obj) {key : String} {val : Val}
    {type : ParamType} (hval : obj.lookup key = some val)
    (htype : cl.cls.paramType key = some type) : ReadableValue type val := by
  obtain ⟨cleaned, hclean, hhash⟩ := hreadable key val type hval htype
  refine ⟨cleaned, hclean, fun hlist => hhash hlist ?_⟩
  exact cl.not_param_of_list (hlist ▸ htype)

theorem ClientClass.readable_of_values {cls : ClientClass}
    {obj : Dict String Val} (hvalues : ∀ key val type,
      obj.lookup key = some val → cls.paramType key = some type →
      ReadableValue type val) : cls.Readable obj := by
  intro key val type hval htype
  obtain ⟨cleaned, hclean, hhash⟩ := hvalues key val type hval htype
  exact ⟨cleaned, hclean, fun hlist _ => hhash hlist⟩

theorem userReadable_of_takesIn {obj current : Dict String Val}
    (hcurrent : userMungeResponse obj = .ok current)
    (hlists : userClass.HashableLists current) : UserReadable obj := by
  obtain ⟨certs, hcerts, hok⟩ := bind_eq_ok_iff.mp hcurrent
  obtain ⟨munged, hmunged, hok⟩ := bind_eq_ok_iff.mp hok
  have hreadable := ClientClass.readable_of_hashableLists hok hlists
  have hcertsAt : ∀ key, key ≠ "usercertificate" →
      certs.lookup key = obj.lookup key :=
    fun key hkey => lookup_userMungeResponseUsercertificate hcerts hkey
  have hmungedAt : ∀ key, key ≠ "krbprincipalname" →
      munged.lookup key = certs.lookup key :=
    fun key hkey => lookup_userMungeResponseKrbprincipalname hmunged hkey
  refine ⟨fun raw hraw => ?_, fun raw hraw => ?_, ?_⟩
  · unfold userMungeResponseUsercertificate at hcerts
    rw [hraw] at hcerts
    obtain ⟨vs, hvs, hcerts⟩ := bind_eq_ok_iff.mp hcerts
    have hlisted : munged.lookup "usercertificate" =
        some (.list (vs.map unwrapBase64)) := by
      rw [hmungedAt _ (by decide), ← Except.ok.inj hcerts,
        AList.lookup_insert]
    exact ⟨vs, hvs, Client.user.readableValue hreadable hlisted rfl⟩
  · have hprinc : certs.lookup "krbprincipalname" = some raw := by
      rw [hcertsAt _ (by decide), hraw]
    rw [← hcertsAt "krbcanonicalname" (by decide)]
    exact userPrincipals_of_isOk hmunged hprinc
  · intro key val type hcert hprinc hval htype
    refine Client.user.readableValue hreadable ?_ htype
    rw [hmungedAt key hprinc, hcertsAt key hcert, hval]

theorem userMungeResponseUsercertificate_isOk {obj : Dict String Val}
    (hcerts : ∀ raw, obj.lookup "usercertificate" = some raw →
      ∃ vs, raw.iter = .ok vs ∧
        ReadableValue .list (.list (vs.map unwrapBase64))) :
    ∃ certs, userMungeResponseUsercertificate obj = .ok certs ∧
      (∀ key, key ≠ "usercertificate" →
        certs.lookup key = obj.lookup key) ∧
      ∀ raw, certs.lookup "usercertificate" = some raw →
        ReadableValue .list raw := by
  unfold userMungeResponseUsercertificate
  cases hraw : obj.lookup "usercertificate" with
  | none =>
      exact ⟨obj, rfl, fun _ _ => rfl, fun raw h => by simp [hraw] at h⟩
  | some raw =>
      obtain ⟨vs, hvs, hreadable⟩ := hcerts raw hraw
      refine ⟨obj.insert "usercertificate" (.list (vs.map unwrapBase64)),
        by simp [hvs], fun key hkey => AList.lookup_insert_ne hkey,
        fun raw h => ?_⟩
      rw [AList.lookup_insert] at h
      rw [← Option.some.inj h]
      exact hreadable

theorem UserReadable.takesIn {obj : Dict String Val} (hobj : UserReadable obj) :
    ∃ current, userMungeResponse obj = .ok current ∧
      userClass.HashableLists current := by
  obtain ⟨certs, hcerts, hcertsAt, hcertVals⟩ :=
    userMungeResponseUsercertificate_isOk hobj.certs
  obtain ⟨munged, hmunged, hmungedAt, hprincVals⟩ :=
    userMungeResponseKrbprincipalname_isOk fun raw hraw => by
      rw [hcertsAt _ (by decide)] at hraw ⊢
      exact hobj.principals raw hraw
  have hreadable : userClass.Readable munged := by
    apply ClientClass.readable_of_values
    intro key val type hval htype
    by_cases hprinc : key = "krbprincipalname"
    · subst hprinc
      obtain rfl : ParamType.list = type := Option.some.inj htype
      exact hprincVals val hval
    rw [hmungedAt key hprinc] at hval
    by_cases hcert : key = "usercertificate"
    · subst hcert
      obtain rfl : ParamType.list = type := Option.some.inj htype
      exact hcertVals val hval
    rw [hcertsAt key hcert] at hval
    exact hobj.others key val type hcert hprinc hval htype
  obtain ⟨current, hcurrent, hlists⟩ := ClientClass.readable_iff.mpr hreadable
  refine ⟨current, ?_, hlists⟩
  rw [userMungeResponse, hcerts, ok_bind, hmunged, ok_bind, hcurrent]

/-! ## The object of a service -/

/-- The object of a reply that the service client takes in: the principal
names, where `clean` keeps any, have the name the task gives. -/
structure ServiceReadable (m : AnsibleModule) (obj : Dict String Val) :
    Prop where
  principals : ∀ raw princs, obj.lookup "krbprincipalname" = some raw →
    cleanValue .list raw = .ok (some (.list princs)) →
    let canonical := (m.params.lookup "krbcanonicalname").getD .none
    (∃ v ∈ princs, v.pyEq canonical = true) ∧
      ∃ atoms, hashAll (removeFirst canonical princs) = some atoms
  others : ∀ key val type, key ≠ "krbprincipalname" →
    obj.lookup key = some val → serviceClass.paramType key = some type →
    ReadableValue type val

/-- A list attribute of an item that a diff can take in. -/
theorem ClientClass.HashableLists.hashAll {cls : ClientClass}
    {item : Dict String Val} (hlists : cls.HashableLists item) {key : String}
    {vs : List Val} (htype : cls.paramType key = some .list)
    (hval : item.lookup key = some (.list vs)) :
    ∃ atoms, FreeipaProv.hashAll vs = some atoms := by
  have hlist : (cls.listSlice item).lookup key = some (.list vs) := by
    rw [lookup_listSlice, if_pos htype, hval]
  obtain ⟨vals, hvals⟩ := hlists key _ hlist
  obtain ⟨atoms, hatoms, -⟩ := pySet_list_eq_ok_iff.mp hvals
  exact ⟨atoms, hashAll_eq_some_iff.mpr hatoms⟩

theorem pySet_of_hashAll {vs : List Val} {atoms : List Atom}
    (hatoms : hashAll vs = some atoms) :
    ∃ vals, pySet (.list vs) = .ok vals :=
  ⟨_, pySet_list_eq_ok_iff.mpr ⟨atoms, hashAll_eq_some_iff.mp hatoms, rfl⟩⟩

theorem lookup_servicePrincipals {obj item : Dict String Val}
    (hitem : serviceClass.mungeResponse obj = .ok item) :
    (serviceMungeResponseUsercertificate item).lookup "krbprincipalname" =
      serviceClass.cleanedAt obj "krbprincipalname" := by
  rw [lookup_serviceMungeResponseUsercertificate _ (by decide),
    ClientClass.lookup_mungeResponse hitem, if_neg (by decide)]

theorem serviceReadable_of_takesIn {m : AnsibleModule}
    {obj current : Dict String Val}
    (hcurrent : serviceMungeResponse m obj = .ok current)
    (hlists : serviceClass.HashableLists current) : ServiceReadable m obj := by
  obtain ⟨item, hitem, hmunged⟩ := bind_eq_ok_iff.mp hcurrent
  obtain ⟨cleaned, hclean, -⟩ := bind_eq_ok_iff.mp hitem
  constructor
  · intro raw princs hraw hprincs
    have hval : (serviceMungeResponseUsercertificate item).lookup
        "krbprincipalname" = some (.list princs) := by
      rw [lookup_servicePrincipals hitem, ClientClass.cleanedAt, hraw,
        Option.bind_some]
      change Dict.stepValue (cleanValue .list raw) = _
      rw [hprincs]
      rfl
    unfold serviceMungeResponseKrbprincipalname at hmunged
    rw [hval] at hmunged
    obtain ⟨vals, hvals, hmunged⟩ := bind_eq_ok_iff.mp hmunged
    obtain rfl : princs = vals := Except.ok.inj hvals
    dsimp only at hmunged ⊢
    split_ifs at hmunged with hmem hempty
    · refine ⟨List.any_eq_true.mp hmem, [], ?_⟩
      rw [List.isEmpty_iff.mp hempty]
      rfl
    · refine ⟨List.any_eq_true.mp hmem, ?_⟩
      have hleft : current.lookup "krbprincipalname" = some (.list
          (removeFirst ((m.params.lookup "krbcanonicalname").getD .none)
            princs)) := by
        rw [← Except.ok.inj hmunged, AList.lookup_insert]
      exact hlists.hashAll rfl hleft
  · intro key val type hprinc hval htype
    obtain ⟨step, hstep⟩ :=
      Dict.traverse_isOk_iff.mp ⟨cleaned, hclean⟩ key val hval
    rw [htype] at hstep
    refine ⟨step, hstep, ?_⟩
    rintro rfl vs rfl
    have hcert : key ≠ "usercertificate" := by
      rintro rfl
      contradiction
    obtain ⟨item', hitem', hlookup⟩ :=
      lookup_serviceMungeResponse hcurrent hcert hprinc
    have hparam : key ∉ serviceClass.paramKeys :=
      Client.service.not_param_of_list htype
    apply hlists.hashAll htype
    rw [hlookup, ClientClass.lookup_mungeResponse hitem', if_neg hparam,
      ClientClass.cleanedAt, hval, htype]
    simp only [Option.bind_some]
    change cleanValue .list val = _ at hstep
    rw [hstep]
    rfl

theorem ServiceReadable.mungeResponse_isOk {m : AnsibleModule}
    {obj : Dict String Val} (hobj : ServiceReadable m obj) :
    ∃ item, serviceClass.mungeResponse obj = .ok item := by
  have hclean : ∃ cleaned, serviceClass.clean obj = .ok cleaned := by
    refine Dict.traverse_isOk_iff.mpr fun key val hval => ?_
    cases htype : serviceClass.paramType key with
    | none => exact ⟨none, rfl⟩
    | some type =>
        by_cases hprinc : key = "krbprincipalname"
        · subst hprinc
          obtain rfl : ParamType.list = type := Option.some.inj htype
          exact cleanValue_list_isOk val
        · obtain ⟨step, hstep, -⟩ :=
            hobj.others key val type hprinc hval htype
          exact ⟨step, hstep⟩
  obtain ⟨cleaned, hclean⟩ := hclean
  exact ⟨serviceClass.mungePopRequestKeys cleaned, by
    simp [ClientClass.mungeResponse, hclean]⟩

theorem ServiceReadable.principals_isOk {m : AnsibleModule}
    {obj item : Dict String Val} (hobj : ServiceReadable m obj)
    (hitem : serviceClass.mungeResponse obj = .ok item) :
    ∃ current, serviceMungeResponseKrbprincipalname m
        (serviceMungeResponseUsercertificate item) = .ok current ∧
      ∀ val, current.lookup "krbprincipalname" = some val →
        ∃ vals, pySet val = .ok vals := by
  unfold serviceMungeResponseKrbprincipalname
  cases hval : (serviceMungeResponseUsercertificate item).lookup
      "krbprincipalname" with
  | none => exact ⟨_, rfl, fun val h => by simp [hval] at h⟩
  | some val =>
      rw [lookup_servicePrincipals hitem] at hval
      obtain ⟨raw, type, hraw, htype, hclean⟩ :=
        ClientClass.cleanedAt_eq_some hval
      obtain rfl : ParamType.list = type := Option.some.inj htype
      obtain ⟨v, vs, rfl, -, -⟩ := cleanValue_list_eq_ok hclean
      obtain ⟨hmem, atoms, hatoms⟩ :=
        hobj.principals raw (v :: vs) hraw hclean
      have hmember := List.any_eq_true.mpr hmem
      simp only [Val.iter, ok_bind]
      rw [if_pos hmember]
      split
      · exact ⟨_, rfl, fun val h => by simp at h⟩
      · refine ⟨_, rfl, fun val h => ?_⟩
        rw [AList.lookup_insert] at h
        rw [← Option.some.inj h]
        exact pySet_of_hashAll hatoms

theorem ServiceReadable.takesIn {m : AnsibleModule} {obj : Dict String Val}
    (hobj : ServiceReadable m obj) :
    ∃ current, serviceMungeResponse m obj = .ok current ∧
      serviceClass.HashableLists current := by
  obtain ⟨item, hitem⟩ := hobj.mungeResponse_isOk
  obtain ⟨current, hmunged, hnames⟩ := hobj.principals_isOk hitem
  have hcurrent : serviceMungeResponse m obj = .ok current := by
    rw [serviceMungeResponse, hitem, ok_bind, hmunged]
  refine ⟨current, hcurrent, fun key val hval => ?_⟩
  rw [ClientClass.lookup_listSlice] at hval
  split_ifs at hval with htype
  by_cases hprinc : key = "krbprincipalname"
  · subst hprinc
    exact hnames val hval
  have hcert : key ≠ "usercertificate" := by
    rintro rfl
    contradiction
  obtain ⟨item', hitem', hlookup⟩ :=
    lookup_serviceMungeResponse hcurrent hcert hprinc
  have hparam : key ∉ serviceClass.paramKeys :=
    Client.service.not_param_of_list htype
  rw [hlookup, ClientClass.lookup_mungeResponse hitem', if_neg hparam] at hval
  obtain ⟨raw, type, hraw, htype', hclean⟩ :=
    ClientClass.cleanedAt_eq_some hval
  obtain rfl := Option.some.inj (htype.symm.trans htype')
  obtain ⟨v, vs, rfl, -, -⟩ := cleanValue_list_eq_ok hclean
  obtain ⟨cleaned, hcleaned, hhash⟩ :=
    hobj.others key raw _ hprinc hraw htype
  rw [hclean, Except.ok.injEq] at hcleaned
  obtain ⟨atoms, hatoms⟩ := hhash rfl (v :: vs) hcleaned.symm
  exact pySet_of_hashAll hatoms

/-! ## The steps of a find -/

/-- The object of the reply that the client takes in. -/
def Client.ReadableObject (cl : Client) (m : AnsibleModule)
    (obj : Dict String Val) : Prop :=
  match cl with
  | .user => UserReadable obj
  | .service => ServiceReadable m obj
  | .cert => ∀ subject, obj.lookup "subject" = some subject →
      ∃ s, subject = .str s
  | _ => cl.cls.Readable (cl.apiAttributes obj)

theorem Client.takesIn_iff {cl : Client} {m : AnsibleModule}
    {obj : Dict String Val} :
    (∃ current, cl.mungeResponse m obj = .ok current ∧
      cl.cls.HashableLists current) ↔ cl.ReadableObject m obj := by
  cases cl with
  | user =>
      constructor
      · rintro ⟨current, hcurrent, hlists⟩
        exact userReadable_of_takesIn hcurrent hlists
      · exact UserReadable.takesIn
  | service =>
      constructor
      · rintro ⟨current, hcurrent, hlists⟩
        exact serviceReadable_of_takesIn hcurrent hlists
      · exact ServiceReadable.takesIn
  | cert =>
      constructor
      · rintro ⟨current, hcurrent, -⟩ subject hsubject
        change certMungeResponse obj = .ok current at hcurrent
        rw [certMungeResponse, hsubject] at hcurrent
        obtain ⟨principal, hprincipal, -⟩ := bind_eq_ok_iff.mp hcurrent
        unfold subjectValToPrincipal at hprincipal
        split at hprincipal
        · exact ⟨_, rfl⟩
        · contradiction
      · intro hobj
        have hcurrent : ∃ current, certMungeResponse obj = .ok current := by
          unfold certMungeResponse
          cases hsubject : obj.lookup "subject" with
          | none => exact ⟨_, rfl⟩
          | some subject =>
              obtain ⟨s, rfl⟩ := hobj subject hsubject
              exact ⟨_, rfl⟩
        obtain ⟨current, hcurrent⟩ := hcurrent
        exact ⟨current, hcurrent, certClass_hashableLists current⟩
  | group | caacl | dnszone | dnsrecord | ca =>
      exact ClientClass.readable_iff

/-- The request names a DNS record at the origin of its zone. -/
def AnsibleModule.AtOrigin (m : AnsibleModule) : Prop :=
  ∃ name, dnsrecordClass.cleanedAt m.params "idnsname" = some name ∧
    name.pyEq (.str "@") = true

/-- The task and the reply are such that a find can take them in, and that
its diff reads declared parameters only. -/
structure Client.TakesIn (cl : Client) (t : Task) (reply : FindReply) :
    Prop where
  /-- Every parameter can be cleaned. -/
  params : cl.cls.Readable (cl.cls.ansibleModule t).params
  principal : cl = .cert → ∃ s,
    (cl.cls.ansibleModule t).params.lookup "principal" = some (.str s)
  names : cl = .dnsrecord → ∀ key ∈ cl.cls.paramKeys,
    cl.cls.cleanedAt (cl.cls.ansibleModule t).params key ≠ none
  /-- What `find_filter` reads of the objects. -/
  statuses : cl = .cert → ∀ item ∈ reply.result,
    item.lookup "status" ≠ none
  origins : cl = .dnsrecord → (cl.cls.ansibleModule t).AtOrigin →
    ∀ item ∈ reply.result, item.lookup "idnsname" ≠ none
  object : ∀ obj, cl.findResult (cl.cls.ansibleModule t) reply = .ok obj →
    cl.ReadableObject (cl.cls.ansibleModule t) obj
  declared : cl = .cert → t.state = .exact →
    ∀ obj, cl.findResult (cl.cls.ansibleModule t) reply = .ok obj →
      ∀ key ∈ obj.keys, key ∈ cl.cls.argumentSpec.keys

section Find

variable {cl : Client} {m : AnsibleModule} {reply : FindReply}

theorem Client.clean_of_mungeModuleParams {desired : Dict String Val}
    (hok : cl.mungeModuleParams m = .ok desired) :
    ∃ item, cl.cls.clean m.params = .ok item := by
  have hclass : ∃ item, cl.cls.mungeModuleParams m = .ok item := by
    cases cl with
    | user | caacl | dnszone | cert =>
        obtain ⟨item, hitem, -⟩ := bind_eq_ok_iff.mp hok
        exact ⟨item, hitem⟩
    | group | service | dnsrecord | ca => exact ⟨desired, hok⟩
  obtain ⟨item, hitem⟩ := hclass
  obtain ⟨cleaned, hclean, -⟩ := bind_eq_ok_iff.mp hitem
  exact ⟨cleaned, hclean⟩

/-- The lists of the desired item are those of the parameters. -/
theorem Client.desired_hashable_iff {desired : Dict String Val}
    (hok : cl.mungeModuleParams m = .ok desired) :
    cl.cls.HashableLists desired ↔ cl.cls.Readable m.params := by
  obtain ⟨item, hclean⟩ := Client.clean_of_mungeModuleParams hok
  have hmunged : cl.cls.mungeResponse m.params =
      .ok (cl.cls.mungePopRequestKeys item) := by
    simp [ClientClass.mungeResponse, hclean]
  have hsame : cl.cls.HashableLists desired ↔
      cl.cls.HashableLists (cl.cls.mungePopRequestKeys item) := by
    refine forall_congr' fun key => forall_congr' fun val => ?_
    rw [ClientClass.lookup_listSlice, ClientClass.lookup_listSlice]
    split_ifs with htype
    · have hattr : cl.ListAttr key := Client.listAttr_of_type htype
      rw [Client.lookup_desired_list hok hattr,
        ClientClass.lookup_mungeResponse hmunged, if_neg hattr.1.1.2]
    · rfl
  rw [hsame]
  constructor
  · exact ClientClass.readable_of_hashableLists hmunged
  · intro hreadable
    exact ClientClass.hashableLists_of_readable hreadable hmunged

theorem Client.findResult_isOk_iff : (∃ obj, cl.findResult m reply = .ok obj) ↔
    ∀ item ∈ reply.result, ∃ kept, cl.findFilter m item = .ok kept := by
  constructor
  · rintro ⟨obj, hobj⟩ item hitem
    obtain ⟨kept, hkept, -⟩ := Client.findResult_eq_ok_iff.mp hobj
    exact filter_step_isOk hkept hitem
  · intro hsteps
    obtain ⟨kept, hkept⟩ := filter_isOk hsteps
    exact ⟨_, Client.findResult_eq_ok_iff.mpr ⟨kept, hkept, rfl⟩⟩

theorem ClientClass.hashableLists_of_computeChanges {cls : ClientClass}
    {state : State} {change curr : Dict String Val} {changes : Changes}
    (hok : cls.computeChanges state change curr = .ok changes) :
    cls.HashableLists change ∧ cls.HashableLists curr := by
  obtain ⟨hadd, hdel, -⟩ := computeChanges_parts hok
  by_cases hstate : state = .absent
  · subst hstate
    exact ⟨fun key val hval => (pySet_isOk_of_op hdel).1 hval,
      fun key val hval => (pySet_isOk_of_op hdel).2 hval⟩
  · rw [listAddChanges, if_pos hstate] at hadd
    exact ⟨fun key val hval => (pySet_isOk_of_op hadd).1 hval,
      fun key val hval => (pySet_isOk_of_op hadd).2 hval⟩

/-! ### The request -/

theorem getItem_isOk_iff {item : Dict String Val} {key : String} :
    (∃ val, getItem item key = .ok val) ↔ item.lookup key ≠ none := by
  simp only [getItem_eq_ok_iff, Option.ne_none_iff_exists']

theorem dnsrecord_findRequest_isOk_iff {item : Dict String Val}
    (hclean : dnsrecordClass.clean m.params = .ok item) :
    (∃ request, Client.dnsrecord.findRequest m = .ok request) ↔
      ∀ key ∈ dnsrecordClass.paramKeys,
        dnsrecordClass.cleanedAt m.params key ≠ none := by
  have hkeys : dnsrecordClass.paramKeys = ["idnsname", "zone"] := rfl
  simp only [hkeys, List.forall_mem_cons, List.not_mem_nil, false_imp_iff,
    implies_true, and_true, ← ClientClass.lookup_clean hclean,
    ← getItem_isOk_iff]
  constructor
  · rintro ⟨request, hrequest⟩
    obtain ⟨name, hname, hrequest⟩ := bind_eq_ok_iff.mp hrequest
    obtain ⟨arg, harg, -⟩ := bind_eq_ok_iff.mp hrequest
    rw [dnsrecordFindRequestParams, hclean, ok_bind] at hname
    rw [dnsrecordFindRequestItem, hclean, ok_bind] at harg
    obtain ⟨zone, hzone, -⟩ := bind_eq_ok_iff.mp hname
    obtain ⟨idnsname, hidnsname, -⟩ := bind_eq_ok_iff.mp harg
    exact ⟨⟨idnsname, hidnsname⟩, ⟨zone, hzone⟩⟩
  · rintro ⟨⟨idnsname, hidnsname⟩, ⟨zone, hzone⟩⟩
    simp only [Client.findRequest, dnsrecordFindRequestParams,
      dnsrecordFindRequestItem, hclean, ok_bind, hzone, hidnsname]
    split <;> exact ⟨_, rfl⟩

theorem cert_findRequest_isOk_iff
    (hca : m.params.lookup "cacn" ≠ none) :
    (∃ request, Client.cert.findRequest m = .ok request) ↔
      ∃ s, m.params.lookup "principal" = some (.str s) := by
  constructor
  · rintro ⟨request, hrequest⟩
    obtain ⟨item, hitem, -⟩ := bind_eq_ok_iff.mp hrequest
    obtain ⟨subject, hsubject, hitem⟩ := bind_eq_ok_iff.mp hitem
    obtain ⟨principal, hprincipal, -⟩ := bind_eq_ok_iff.mp hitem
    rw [getItem_eq_ok_iff] at hsubject
    unfold subjectValToPrincipal at hprincipal
    split at hprincipal
    · exact ⟨_, hsubject⟩
    · contradiction
  · rintro ⟨s, hs⟩
    obtain ⟨ca, hca⟩ := Option.ne_none_iff_exists'.mp hca
    simp only [Client.findRequest, certFindRequestItem, getItem, hs, hca,
      subjectValToPrincipal, ok_bind]
    split
    · split <;> exact ⟨_, rfl⟩
    · exact ⟨_, rfl⟩

/-! ### The objects of the reply -/

theorem cert_findFilter_isOk_iff {item : Dict String Val} :
    (∃ kept, Client.cert.findFilter m item = .ok kept) ↔
      item.lookup "status" ≠ none := by
  rw [← getItem_isOk_iff]
  constructor
  · rintro ⟨kept, hkept⟩
    obtain ⟨status, hstatus, -⟩ := bind_eq_ok_iff.mp hkept
    exact ⟨status, hstatus⟩
  · rintro ⟨status, hstatus⟩
    exact ⟨status.pyEq (.str "VALID"), by
      simp [Client.findFilter, hstatus]⟩

theorem dnsrecord_findFilter_isOk_iff {cleaned item : Dict String Val}
    (hclean : dnsrecordClass.clean m.params = .ok cleaned)
    (hname : dnsrecordClass.cleanedAt m.params "idnsname" ≠ none) :
    (∃ kept, Client.dnsrecord.findFilter m item = .ok kept) ↔
      (m.AtOrigin → item.lookup "idnsname" ≠ none) := by
  obtain ⟨name, hname⟩ := Option.ne_none_iff_exists'.mp hname
  have hitem : getItem cleaned "idnsname" = .ok name := by
    rw [getItem_eq_ok_iff, ClientClass.lookup_clean hclean, hname]
  have hfilter : Client.dnsrecord.findFilter m item =
      if name.pyEq (.str "@") then (do
        let idnsname ← getItem item "idnsname"
        .ok (idnsname.pyEq (.list [.str "@"])))
      else .ok true := by
    simp only [Client.findFilter, dnsrecordIsOrigin, hclean, hitem, ok_bind]
  have horigin : m.AtOrigin ↔ name.pyEq (.str "@") = true := by
    constructor
    · rintro ⟨name', hname', heq⟩
      obtain rfl := Option.some.inj (hname.symm.trans hname')
      exact heq
    · exact fun heq => ⟨name, hname, heq⟩
  rw [hfilter, horigin]
  split_ifs with heq
  · rw [← getItem_isOk_iff]
    constructor
    · rintro ⟨kept, hkept⟩ -
      obtain ⟨idnsname, hidnsname, -⟩ := bind_eq_ok_iff.mp hkept
      exact ⟨idnsname, hidnsname⟩
    · intro hread
      obtain ⟨idnsname, hidnsname⟩ := hread heq
      exact ⟨idnsname.pyEq (.list [.str "@"]), by rw [hidnsname, ok_bind]⟩
  · exact ⟨fun _ h => absurd h heq, fun _ => ⟨true, rfl⟩⟩

end Find

/-- The diff of a find reads declared parameters only, and the find gets
through to its end. -/
structure Client.ReadsDeclared (cl : Client) (m : AnsibleModule)
    (reply : FindReply) : Prop where
  declared : ∀ desired obj current, cl.mungeModuleParams m = .ok desired →
    cl.findResult m reply = .ok obj → cl.mungeResponse m obj = .ok current →
    ∀ key ∈ cl.cls.indexedKeys m.state desired current,
      key ∈ cl.cls.argumentSpec.keys
  noKeyError : ∀ key, cl.find m reply ≠ .error (.keyError key)
  succeeds : ∃ found, cl.find m reply = .ok found

theorem Client.TakesIn.mungeModuleParams_isOk {cl : Client} {t : Task}
    {reply : FindReply} (htakes : cl.TakesIn t reply) :
    ∃ desired, cl.mungeModuleParams (cl.cls.ansibleModule t) =
      .ok desired := by
  obtain ⟨item, hclean⟩ := ClientClass.clean_isOk_of_readable htakes.params
  by_cases hcert : cl = .cert
  · subst hcert
    obtain ⟨s, hs⟩ := htakes.principal rfl
    have hclass : certClass.mungeModuleParams (certClass.ansibleModule t) =
        .ok (certClass.mungeStateExactAddDefaults
          (certClass.ansibleModule t).state
          (certClass.mungePopRequestKeys item)) := by
      change certClass.clean (certClass.ansibleModule t).params =
        .ok item at hclean
      simp [ClientClass.mungeModuleParams, hclean]
    have hkept : certClass.cleanedAt (certClass.ansibleModule t).params
        "principal" = some (.str s) := by
      change (certClass.ansibleModule t).params.lookup "principal" =
        some (.str s) at hs
      rw [ClientClass.cleanedAt, hs]
      rfl
    have hprincipal := ClientClass.lookup_mungeModuleParams hclass "principal"
    rw [if_neg (by decide), hkept, Option.some_or] at hprincipal
    change ∃ desired, certClass.mungeCertParams (certClass.ansibleModule t) =
      .ok desired
    rw [ClientClass.mungeCertParams, hclass, ok_bind,
      getItem_eq_ok_iff.mpr hprincipal]
    exact ⟨_, rfl⟩
  · exact Client.mungeModuleParams_isOk hcert hclean

theorem certClass_gives_cacn (t : Task) :
    (certClass.ansibleModule t).params.lookup "cacn" ≠ none := by
  rw [ClientClass.lookup_ansibleModule_params]
  cases t.given.lookup "cacn" with
  | none => decide +kernel
  | some val => simp

theorem Client.TakesIn.findRequest_isOk {cl : Client} {t : Task}
    {reply : FindReply} (htakes : cl.TakesIn t reply) :
    ∃ request, cl.findRequest (cl.cls.ansibleModule t) = .ok request := by
  obtain ⟨item, hclean⟩ := ClientClass.clean_isOk_of_readable htakes.params
  cases cl with
  | cert =>
      exact (cert_findRequest_isOk_iff (certClass_gives_cacn t)).mpr
        (htakes.principal rfl)
  | dnsrecord =>
      exact (dnsrecord_findRequest_isOk_iff hclean).mpr (htakes.names rfl)
  | user | group | service | caacl | dnszone | ca => exact ⟨_, rfl⟩

theorem Client.TakesIn.findResult_isOk {cl : Client} {t : Task}
    {reply : FindReply} (htakes : cl.TakesIn t reply) :
    ∃ obj, cl.findResult (cl.cls.ansibleModule t) reply = .ok obj := by
  obtain ⟨cleaned, hclean⟩ := ClientClass.clean_isOk_of_readable htakes.params
  refine Client.findResult_isOk_iff.mpr fun item hitem => ?_
  cases cl with
  | cert => exact cert_findFilter_isOk_iff.mpr (htakes.statuses rfl item hitem)
  | dnsrecord =>
      exact (dnsrecord_findFilter_isOk_iff hclean
        (htakes.names rfl "idnsname" (by decide))).mpr fun horigin =>
          htakes.origins rfl horigin item hitem
  | user | group | service | caacl | dnszone | ca => exact ⟨true, rfl⟩

theorem Client.TakesIn.readsDeclared {cl : Client} {t : Task}
    {reply : FindReply} (htakes : cl.TakesIn t reply) :
    cl.ReadsDeclared (cl.cls.ansibleModule t) reply := by
  obtain ⟨desired, hdesired⟩ := htakes.mungeModuleParams_isOk
  obtain ⟨request, hrequest⟩ := htakes.findRequest_isOk
  obtain ⟨obj, hobj⟩ := htakes.findResult_isOk
  obtain ⟨current, hcurrent, hlists⟩ :=
    Client.takesIn_iff.mpr (htakes.object obj hobj)
  have hkeys : ∀ key ∈ cl.cls.indexedKeys (cl.cls.ansibleModule t).state
      desired current, key ∈ cl.cls.argumentSpec.keys := by
    refine (Client.indexedKeys_declared_iff hdesired hcurrent).mpr ?_
    rintro ⟨hcert, hstate, key, hkey, hundeclared⟩
    exact hundeclared (htakes.declared hcert hstate obj hobj key hkey)
  obtain ⟨diffs, hdiffs⟩ := (Client.computeChanges_isOk_iff_class cl _ _ _).mpr
    ((ClientClass.computeChanges_isOk_iff
      ((Client.desired_hashable_iff hdesired).mpr htakes.params)
      hlists).mpr hkeys)
  have hfind := Client.find_of_steps hdesired hrequest hobj hcurrent hdiffs
  refine ⟨?_, fun key => by simp [hfind], ⟨_, hfind⟩⟩
  intro desired' obj' current' hdesired' hobj' hcurrent'
  obtain rfl := Except.ok.inj (hdesired.symm.trans hdesired')
  obtain rfl := Except.ok.inj (hobj.symm.trans hobj')
  obtain rfl := Except.ok.inj (hcurrent.symm.trans hcurrent')
  exact hkeys

theorem Client.ReadsDeclared.takesIn {cl : Client} {t : Task}
    {reply : FindReply}
    (hreads : cl.ReadsDeclared (cl.cls.ansibleModule t) reply) :
    cl.TakesIn t reply := by
  obtain ⟨found, hfind⟩ := hreads.succeeds
  obtain ⟨obj, steps⟩ := Client.find_steps hfind
  obtain ⟨changes, hchanges⟩ :=
    (Client.computeChanges_isOk_iff_class cl _ _ _).mp ⟨_, steps.diffs⟩
  obtain ⟨hdesired, hcurrent⟩ :=
    ClientClass.hashableLists_of_computeChanges hchanges
  obtain ⟨cleaned, hclean⟩ := Client.clean_of_mungeModuleParams steps.desired
  have hfilter := Client.findResult_isOk_iff.mp ⟨obj, steps.selected⟩
  have hnames : cl = .dnsrecord → ∀ key ∈ cl.cls.paramKeys,
      cl.cls.cleanedAt (cl.cls.ansibleModule t).params key ≠ none := by
    rintro rfl
    exact (dnsrecord_findRequest_isOk_iff hclean).mp steps.request
  constructor
  · exact (Client.desired_hashable_iff steps.desired).mp hdesired
  · rintro rfl
    exact (cert_findRequest_isOk_iff (certClass_gives_cacn t)).mp steps.request
  · exact hnames
  · rintro rfl item hitem
    exact cert_findFilter_isOk_iff.mp (hfilter item hitem)
  · rintro rfl horigin item hitem
    exact (dnsrecord_findFilter_isOk_iff hclean
      (hnames rfl "idnsname" (by decide))).mp (hfilter item hitem) horigin
  · intro obj' hobj'
    obtain rfl := Except.ok.inj (steps.selected.symm.trans hobj')
    exact Client.takesIn_iff.mp ⟨_, steps.current, hcurrent⟩
  · intro hcert hstate obj' hobj' key hkey
    obtain rfl := Except.ok.inj (steps.selected.symm.trans hobj')
    by_contra hundeclared
    exact (Client.indexedKeys_declared_iff steps.desired steps.current).mp
      (hreads.declared _ _ _ steps.desired steps.selected steps.current)
      ⟨hcert, hstate, key, hkey, hundeclared⟩

/-- The diff of a find reads declared parameters only, and the find ends
without a `KeyError` or another failure, exactly when the task and the reply
are such that each step can take them in and it is not about a certificate
with undeclared attributes in state `exact`. -/
theorem find_reads_declared_iff (cl : Client) (t : Task)
    (reply : FindReply) :
    cl.ReadsDeclared (cl.cls.ansibleModule t) reply ↔ cl.TakesIn t reply :=
  ⟨Client.ReadsDeclared.takesIn, Client.TakesIn.readsDeclared⟩

/-- A certificate that is to be exactly as the task says. -/
def certExact : Task where
  given := Dict.ofList
    [("principal", .str "web.example.com"), ("cacn", .str "ipa")]
  state := .exact

/-- The find reply of the certificate's attributes that no parameter
declares aborts the module. -/
theorem certExact_reads_undeclared :
    ¬∀ (cl : Client) (t : Task) (reply : FindReply),
      t.state ∈ cl.cls.stateChoices →
      cl.ReadsDeclared (cl.cls.ansibleModule t) reply := by
  intro hreads
  have hfind : Client.cert.find (certClass.ansibleModule certExact)
      (.ofList [webCert "VALID" 11]) = .error (.keyError "subject") := rfl
  exact (hreads .cert certExact (.ofList [webCert "VALID" 11])
    (by decide)).noKeyError "subject" hfind

end FreeipaProv
