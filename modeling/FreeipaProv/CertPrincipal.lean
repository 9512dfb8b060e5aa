import FreeipaProv.CertRequest
import FreeipaProv.Server

/-!
# The principal of a certificate

Whether the certificate found is the one a task asks for is decided by its
principal, which is extracted from the parameter of the task and from the
subject of the certificate.  The extraction covers only subjects in which an
organisation follows the common name, so a certificate with another subject
is requested again on every run.
-/

namespace FreeipaProv

open Fallible

/-! ## Extracting the principal -/

/-- The subject DN with the common name `p` and further RDNs. -/
def subjectDN (p rdns : String) : String :=
  "CN=" ++ p ++ "," ++ rdns

/-- The first of the RDNs is that of an organisation. -/
def OrgFirst (rdns : String) : Prop :=
  ∃ rest, rdns.toList = 'O' :: '=' :: rest

theorem subjectDN_toList (p rdns : String) :
    (subjectDN p rdns).toList =
      'C' :: 'N' :: '=' :: (p.toList ++ ',' :: rdns.toList) := by
  simp [subjectDN]

section Principal

variable {p rdns : String}

theorem subjectToPrincipalChars_dn (hp : ',' ∉ p.toList) :
    subjectToPrincipalChars (subjectDN p rdns).toList =
      match rdns.toList with
      | 'O' :: '=' :: _ => some p.toList
      | _ => none := by
  have hall : ∀ c ∈ p.toList, decide (c ≠ ',') = true := by
    intro c hc
    rw [decide_eq_true_eq]
    rintro rfl
    exact hp hc
  have hdrop : (p.toList ++ ',' :: rdns.toList).dropWhile (· ≠ ',') =
      ',' :: rdns.toList := by
    rw [List.dropWhile_append_of_pos hall]
    rfl
  have htake : (p.toList ++ ',' :: rdns.toList).takeWhile (· ≠ ',') =
      p.toList := by
    rw [List.takeWhile_append_of_pos hall]
    simp
  rw [subjectDN_toList, subjectToPrincipalChars, hdrop, htake]
  split <;> rename_i hrdns
  · rw [List.cons.inj hrdns |>.2]
    rfl
  · split
    · rename_i heq
      exact absurd (congrArg (',' :: ·) heq) (hrdns _)
    · rfl

/-- The common name is extracted where an organisation follows it. -/
theorem subjectToPrincipal_org (hp : ',' ∉ p.toList) (horg : OrgFirst rdns) :
    subjectToPrincipal (subjectDN p rdns) = p := by
  obtain ⟨rest, hrest⟩ := horg
  have hchars := @subjectToPrincipalChars_dn p rdns hp
  rw [hrest] at hchars
  rw [subjectToPrincipal, hchars]
  exact String.ofList_toList

theorem subjectToPrincipal_other (hp : ',' ∉ p.toList)
    (horg : ¬OrgFirst rdns) :
    subjectToPrincipal (subjectDN p rdns) = subjectDN p rdns := by
  have hchars : subjectToPrincipalChars (subjectDN p rdns).toList = none := by
    rw [subjectToPrincipalChars_dn hp]
    split
    · rename_i rest hrest
      exact absurd ⟨rest, hrest⟩ horg
    · rfl
  rw [subjectToPrincipal, hchars]

theorem subjectToPrincipal_name (hp : ',' ∉ p.toList) :
    subjectToPrincipal p = p := by
  have hnone : subjectToPrincipalChars p.toList = none := by
    unfold subjectToPrincipalChars
    split
    · rename_i rest hrest
      split
      · rename_i heq
        have hmem : ',' ∈ rest :=
          (List.dropWhile_sublist _).subset (by rw [heq]; simp)
        exact absurd (by rw [hrest]; simp [hmem]) hp
      · rfl
    · rfl
  rw [subjectToPrincipal, hnone]

theorem subjectDN_ne_name (hp : ',' ∉ p.toList) : subjectDN p rdns ≠ p := by
  intro heq
  apply hp
  rw [← heq, subjectDN_toList]
  simp

/-- The principals of the parameter and the subject agree exactly when the
common name is extracted from both or the parameter is the subject. -/
theorem principals_eq_iff {text : String} (hp : ',' ∉ p.toList)
    (htext : text = p ∨ ∃ rdns', text = subjectDN p rdns') :
    subjectToPrincipal text = subjectToPrincipal (subjectDN p rdns) ↔
      (OrgFirst rdns ∧
        (text = p ∨ ∃ rdns', text = subjectDN p rdns' ∧ OrgFirst rdns')) ∨
      text = subjectDN p rdns := by
  have hne : ∀ rdns', subjectDN p rdns' ≠ p := fun rdns' =>
    subjectDN_ne_name hp
  have hinj : ∀ {a b : String}, subjectDN p a = subjectDN p b → a = b := by
    intro a b heq
    have hlists := congrArg String.toList heq
    simp only [subjectDN_toList, List.cons.injEq, true_and,
      List.append_cancel_left_eq] at hlists
    exact String.toList_inj.mp hlists
  by_cases horg : OrgFirst rdns
  · rw [subjectToPrincipal_org hp horg]
    rcases htext with rfl | ⟨rdns', rfl⟩
    · simp [subjectToPrincipal_name hp, horg]
    · by_cases horg' : OrgFirst rdns'
      · rw [subjectToPrincipal_org hp horg']
        simp only [true_iff]
        exact Or.inl ⟨horg, Or.inr ⟨rdns', rfl, horg'⟩⟩
      · rw [subjectToPrincipal_other hp horg']
        constructor
        · intro heq
          exact absurd heq (hne rdns')
        · rintro (⟨-, heq | ⟨rdns'', heq, horg''⟩⟩ | heq)
          · exact heq
          · rw [hinj heq] at horg'
            exact absurd horg'' horg'
          · rw [hinj heq] at horg'
            exact absurd horg horg'
  · rw [subjectToPrincipal_other hp horg]
    rcases htext with rfl | ⟨rdns', rfl⟩
    · rw [subjectToPrincipal_name hp]
      simp [horg]
    · by_cases horg' : OrgFirst rdns'
      · rw [subjectToPrincipal_org hp horg']
        constructor
        · intro heq
          exact absurd heq.symm (hne rdns)
        · rintro (⟨horg'', -⟩ | heq)
          · exact absurd horg'' horg
          · rw [hinj heq] at horg'
            exact absurd horg' horg
      · rw [subjectToPrincipal_other hp horg']
        simp [horg]

end Principal

/-! ## Requesting a certificate that is there -/

/-- A valid certificate of the authority for the common name `p`. -/
structure IsCertOf (p ca : String) (cert : Dict String Val) : Prop where
  valid : isValid cert = true
  subject : ∃ rdns, cert.lookup "subject" = some (.str (subjectDN p rdns))
  authority : cert.lookup "cacn" = some (.str ca)

section Requested

variable {t : TypedTask .cert} {reply : FindReply} {cert : Dict String Val}
  {text ca subject : String}

theorem TypedTask.cert_desired (hstate : t.state = .present)
    (hprincipal :
      t.ansibleModule.params.lookup "principal" = some (.str text))
    (hca : t.ansibleModule.params.lookup "cacn" = some (.str ca)) :
    ∃ desired, Client.cert.mungeModuleParams t.ansibleModule = .ok desired ∧
      desired.lookup "principal" = some (.str (subjectToPrincipal text)) ∧
      desired.lookup "cacn" = some (.str ca) := by
  obtain ⟨item, hclean⟩ := t.clean_isOk
  have hdesired : certClass.mungeModuleParams t.ansibleModule =
      .ok (certClass.mungeStateExactAddDefaults t.ansibleModule.state
        (certClass.mungePopRequestKeys item)) := by
    change certClass.clean t.ansibleModule.params = .ok item at hclean
    simp [ClientClass.mungeModuleParams, hclean]
  generalize certClass.mungeStateExactAddDefaults t.ansibleModule.state
    (certClass.mungePopRequestKeys item) = desired at hdesired
  have hlookup : ∀ key ∈ ["principal", "cacn"], desired.lookup key =
      certClass.cleanedAt t.ansibleModule.params key := by
    intro key hkey
    have hnot : key ∉ certClass.paramKeys := by
      revert key
      decide
    have hexact : t.ansibleModule.state ≠ .exact := by
      change t.state ≠ .exact
      simp [hstate]
    rw [ClientClass.lookup_mungeModuleParams hdesired key, if_neg hnot,
      if_neg hexact, Option.or_none]
  have hcleaned : ∀ {key s : String},
      certClass.paramType key = some .str →
      t.ansibleModule.params.lookup key = some (.str s) →
      certClass.cleanedAt t.ansibleModule.params key = some (.str s) := by
    intro key s htype hval
    rw [ClientClass.cleanedAt, htype, hval]
    rfl
  have hitem : desired.lookup "principal" = some (.str text) := by
    rw [hlookup _ (by simp), hcleaned rfl hprincipal]
  refine ⟨desired.insert "principal" (.str (subjectToPrincipal text)), ?_,
    AList.lookup_insert _, ?_⟩
  · change certClass.mungeCertParams t.ansibleModule = _
    rw [ClientClass.mungeCertParams, hdesired, ok_bind, getItem, hitem]
    rfl
  · rw [AList.lookup_insert_ne (by decide), hlookup _ (by simp),
      hcleaned rfl hca]

/-- `find` succeeds on a reply with a certificate of that authority. -/
theorem TypedTask.cert_find_isOk (hstate : t.state = .present)
    (hprincipal :
      t.ansibleModule.params.lookup "principal" = some (.str text))
    (hca : t.ansibleModule.params.lookup "cacn" = some (.str ca))
    (hstatus : ∀ item ∈ reply.result, item.lookup "status" ≠ none)
    (hfound : lastValid reply = some cert)
    (hsubject : cert.lookup "subject" = some (.str subject)) :
    ∃ found, Client.cert.find t.ansibleModule reply = .ok found ∧
      FindSteps .cert t.ansibleModule reply found cert := by
  obtain ⟨desired, hdesired, -⟩ := t.cert_desired hstate hprincipal hca
  obtain ⟨request, hrequest⟩ : ∃ request,
      Client.cert.findRequest t.ansibleModule = .ok request := by
    simp only [Client.findRequest, certFindRequestItem, getItem, hprincipal,
      hca, subjectValToPrincipal, ok_bind]
    split
    · split <;> exact ⟨_, rfl⟩
    · exact ⟨_, rfl⟩
  obtain ⟨kept, hkept⟩ : ∃ kept,
      Client.cert.kept t.ansibleModule reply = .ok kept := by
    apply filter_isOk
    intro item hitem
    obtain ⟨status, hval⟩ :=
      Option.ne_none_iff_exists'.mp (hstatus item hitem)
    exact ⟨status.pyEq (.str "VALID"), by
      simp [Client.findFilter, getItem, hval]⟩
  have hobj : Client.cert.findResult t.ansibleModule reply = .ok cert := by
    have hselected := Client.findResult_eq_ok_iff.mpr ⟨kept, hkept, rfl⟩
    have hlast := cert_findResult hselected
    rw [hfound, Option.getD_some] at hlast
    rw [hselected, hlast]
  have hcurrent : Client.cert.mungeResponse t.ansibleModule cert =
      .ok (cert.insert "principal" (.str (subjectToPrincipal subject))) := by
    change certMungeResponse cert = _
    rw [certMungeResponse, hsubject]
    rfl
  obtain ⟨diffs, hdiffs⟩ := (Client.computeChanges_isOk_iff_class .cert
      t.ansibleModule.state desired _).mpr
    ((ClientClass.computeChanges_isOk_iff (certClass_hashableLists _)
      (certClass_hashableLists
        (cert.insert "principal" (.str (subjectToPrincipal subject))))).mpr
      fun key hkey => Client.mem_argumentSpec_of_desired hdesired
        (ClientClass.indexedKeys_desired (by
          change t.state ≠ .exact
          simp [hstate]) hkey))
  have hfind := Client.find_of_steps hdesired hrequest hobj hcurrent hdiffs
  exact ⟨_, hfind, hdesired, ⟨request, hrequest⟩, hobj, hcurrent, hdiffs,
    rfl, rfl⟩

theorem FindSteps.cert_lookup_desired {found : Found}
    (steps : FindSteps .cert t.ansibleModule reply found cert)
    (hstate : t.state = .present)
    (hprincipal :
      t.ansibleModule.params.lookup "principal" = some (.str text))
    (hca : t.ansibleModule.params.lookup "cacn" = some (.str ca)) :
    found.canonParams.lookup "principal" =
      some (.str (subjectToPrincipal text)) := by
  obtain ⟨desired, hok, hwanted, -⟩ := t.cert_desired hstate hprincipal hca
  obtain rfl := Except.ok.inj (hok.symm.trans steps.desired)
  exact hwanted

theorem FindSteps.cert_lookup_current {m : AnsibleModule} {found : Found}
    (steps : FindSteps .cert m reply found cert)
    (hsubject : cert.lookup "subject" = some (.str subject)) :
    found.responseCleaned.lookup "principal" =
      some (.str (subjectToPrincipal subject)) := by
  have hcurrent : certMungeResponse cert = .ok found.responseCleaned :=
    steps.current
  rw [certMungeResponse, hsubject] at hcurrent
  rw [← Except.ok.inj hcurrent, AList.lookup_insert]

/-- A certificate of the principal the task asks for is left as it is. -/
theorem TypedTask.cert_settled (hstate : t.state = .present)
    (hprincipal :
      t.ansibleModule.params.lookup "principal" = some (.str text))
    (hca : t.ansibleModule.params.lookup "cacn" = some (.str ca))
    (hreason : ¬t.ansibleModule.Gives "revocation_reason")
    {found : Found} (steps : FindSteps .cert t.ansibleModule reply found cert)
    (hreply : reply.result ≠ [])
    (hsubject : cert.lookup "subject" = some (.str subject))
    (hcacn : cert.lookup "cacn" = some (.str ca))
    (hsame : subjectToPrincipal text = subjectToPrincipal subject) :
    Client.cert.queueRequests t.ansibleModule found = .ok ⟨[], false⟩ := by
  have hdesired := t.cert_desired hstate hprincipal hca
  obtain ⟨desired, hok, hwanted, hwantedCa⟩ := hdesired
  obtain rfl := Except.ok.inj (hok.symm.trans steps.desired)
  have hpresent : t.ansibleModule.state = .present := hstate
  have hparam : t.ansibleModule.params.lookup "revocation_reason" ≠ none := by
    rw [TypedTask.ansibleModule, ClientClass.lookup_ansibleModule_params]
    cases t.given.lookup "revocation_reason" with
    | none => decide +kernel
    | some val => simp
  have hcurrent : certMungeResponse cert = .ok found.responseCleaned :=
    steps.current
  have hissued := steps.cert_lookup_current hsubject
  have hissuedCa : found.responseCleaned.lookup "cacn" = some (.str ca) := by
    rw [certMungeResponse_lookup hcurrent (by decide), hcacn]
  -- each attribute the task gives has its value on the certificate
  have hequal : ∀ key ∈ certClass.baseKeys, ∀ val,
      found.canonParams.lookup key = some val →
        found.responseCleaned.lookup key = some val ∧
          ∃ s, val = .str s := by
    intro key hkey val hval
    have hkeys : certClass.baseKeys =
        ["principal", "cacn", "revocation_reason"] := by decide +kernel
    rw [hkeys] at hkey
    simp only [List.mem_cons, List.not_mem_nil, or_false] at hkey
    rcases hkey with rfl | rfl | rfl
    · rw [hwanted] at hval
      rw [hissued, ← hsame, hval]
      exact ⟨rfl, _, (Option.some.inj hval).symm⟩
    · rw [hwantedCa] at hval
      rw [hissuedCa, hval]
      exact ⟨rfl, _, (Option.some.inj hval).symm⟩
    · rw [steps.lookup_reason_of_not_gives hparam hreason] at hval
      contradiction
  have hsettled : Client.cert.queuesBase found = false := by
    rw [← Bool.not_eq_true, steps.queuesBase_iff (by simp [hpresent])]
    rintro (hnil | ⟨key, hkey, hdiffers⟩)
    · exact hreply hnil
    have htypes : ∀ key ∈ certClass.baseKeys,
        certClass.paramType key ≠ some .list := by decide +kernel
    have htype := htypes key hkey
    change certClass.Differs t.ansibleModule.state _ _ key at hdiffers
    rw [hpresent, ClientClass.Differs,
      ClientClass.members_eq_nil_of_scalar htype,
      ClientClass.members_eq_nil_of_scalar htype] at hdiffers
    rcases hdiffers with hadd | hdel | ⟨val, hval, hold⟩ | ⟨hexact, -⟩
    · exact hadd rfl
    · exact hdel rfl
    · rw [ClientClass.scalar_of_lookup htype] at hval
      obtain ⟨hsame, s, rfl⟩ := hequal key hkey val hval
      have hdiffer := hold _
        ((ClientClass.scalar_of_lookup htype _).trans hsame)
      simp [Val.pyEq] at hdiffer
    · contradiction
  have hends : Client.cert.remEnds t.ansibleModule found = false := by
    rw [← Bool.not_eq_true, cert_remEnds_iff, hpresent]
    simp
  have hbase : Client.cert.baseEntries t.ansibleModule found = .ok [] := by
    rw [Client.baseEntries, if_neg (by simp [hsettled])]
  rw [queueRequests_of_not_remEnds hends, hbase]
  have hflag : Client.cert.flagEntries t.ansibleModule found = [] :=
    flagEntries_eq_nil .cert rfl _ _
  have hroutes : Client.cert.routeEntries t.ansibleModule found = [] := rfl
  simp only [Except.map, hflag, hroutes, List.append_nil, ite_self]
  rfl

/-- The run finds a certificate of the common name, takes it for the one the
task asks for, and returns it with nothing done. -/
def TypedTask.SettledBy (t : TypedTask .cert) (reply : FindReply)
    (p ca : String) : Prop :=
  ∃ found, ∃ cert ∈ reply.result, IsCertOf p ca cert ∧
    Client.cert.find t.ansibleModule reply = .ok found ∧
    found.responseCleaned.lookup "principal" =
      found.canonParams.lookup "principal" ∧
    Client.cert.queueRequests t.ansibleModule found = .ok ⟨[], false⟩ ∧
    ∀ (σ : Type) (post : Post σ) (server : σ),
      Client.cert.ensure t.ansibleModule reply post server =
        .ok (.dict cert.items, false, server)

theorem lastValid_ne_none (hcert : cert ∈ reply.result)
    (hvalid : isValid cert = true) : lastValid reply ≠ none := by
  rw [lastValid, ne_eq, List.getLast?_eq_none_iff]
  exact List.ne_nil_of_mem (List.mem_filter.mpr ⟨hcert, hvalid⟩)

theorem FindSteps.status_ne_none {m : AnsibleModule} {found : Found}
    {obj : Dict String Val} (steps : FindSteps .cert m reply found obj) :
    ∀ item ∈ reply.result, item.lookup "status" ≠ none := by
  intro item hitem hnone
  obtain ⟨kept, hkept, -⟩ := Client.findResult_eq_ok_iff.mp steps.selected
  obtain ⟨valid, hvalid⟩ := filter_step_isOk hkept hitem
  simp [Client.findFilter, getItem, hnone] at hvalid

/-- A run of a task that asks for the principal `p` and whose reply has a
valid certificate of it returns such a certificate as it is, exactly when the
reply can be filtered, its last valid certificate is one of `p`, and an
organisation follows the common name in the subject and in a DN the task
gives, or the task gives the subject itself; otherwise the run fails or
requests a certificate again. -/
theorem cert_request_idempotent_iff {p : String}
    (hstate : t.state = .present) (hp : ',' ∉ p.toList)
    (htext : text = p ∨ ∃ rdns, text = subjectDN p rdns)
    (hprincipal :
      t.ansibleModule.params.lookup "principal" = some (.str text))
    (hca : t.ansibleModule.params.lookup "cacn" = some (.str ca))
    (hreason : ¬t.ansibleModule.Gives "revocation_reason")
    (hcert : cert ∈ reply.result) (hof : IsCertOf p ca cert) :
    t.SettledBy reply p ca ↔
    (∀ item ∈ reply.result, item.lookup "status" ≠ none) ∧
      ∃ last rdns, lastValid reply = some last ∧
        last.lookup "subject" = some (.str (subjectDN p rdns)) ∧
        last.lookup "cacn" = some (.str ca) ∧
        ((OrgFirst rdns ∧
            (text = p ∨ ∃ rdns', text = subjectDN p rdns' ∧ OrgFirst rdns')) ∨
          text = subjectDN p rdns) := by
  constructor
  · rintro ⟨found, cert', -, hof', hfind, hsame, hqueue, hensure⟩
    obtain ⟨obj, steps⟩ := Client.find_steps hfind
    obtain ⟨last, hlast⟩ :=
      Option.ne_none_iff_exists'.mp (lastValid_ne_none hcert hof.valid)
    obtain rfl : obj = last := by
      rw [cert_findResult steps.selected, hlast, Option.getD_some]
    -- what the run returns is the certificate it selected
    have hreturned := hensure Unit acceptingPost ()
    rw [Client.ensure, hfind, ok_bind, hqueue, ok_bind] at hreturned
    have hitems : found.response.items = cert'.items := by
      simpa [processQueue] using hreturned
    obtain rfl : obj = cert' := by
      rw [steps.response] at hitems
      rw [← Dict.ofPairs_items obj, ← Dict.ofPairs_items cert']
      exact congrArg Dict.ofPairs hitems
    obtain ⟨rdns, hsubject⟩ := hof'.subject
    refine ⟨steps.status_ne_none, obj, rdns, hlast, hsubject, hof'.authority,
      ?_⟩
    rw [← principals_eq_iff hp htext]
    rw [steps.cert_lookup_current hsubject,
      steps.cert_lookup_desired hstate hprincipal hca] at hsame
    injection hsame with hsame
    injection hsame with hsame
    injection hsame with hsame
    exact hsame.symm
  · rintro ⟨hstatus, last, rdns, hlast, hsubject, hcacn, hsame⟩
    rw [← principals_eq_iff hp htext] at hsame
    obtain ⟨found, hfind, steps⟩ := t.cert_find_isOk hstate hprincipal hca
      hstatus hlast hsubject
    obtain ⟨hmem, hvalid⟩ := List.mem_filter.mp (List.mem_of_getLast? hlast)
    have hqueue := t.cert_settled hstate hprincipal hca hreason steps
      (List.ne_nil_of_mem hmem) hsubject hcacn hsame
    refine ⟨found, last, hmem, ⟨hvalid, ⟨rdns, hsubject⟩, hcacn⟩, hfind, ?_,
      hqueue, fun σ post server => ?_⟩
    · rw [steps.cert_lookup_current hsubject,
        steps.cert_lookup_desired hstate hprincipal hca, hsame]
    · rw [Client.ensure, hfind, ok_bind, hqueue, ok_bind, steps.response]
      rfl

end Requested

/-- A certificate for a web server. -/
def webTask : TypedTask .cert where
  given := Dict.ofList
    [("principal", .str "web.example.com"), ("cacn", .str "ipa"),
     ("req", .str "CSR")]
  state := .present
  typed := by
    intro key raw type hraw htype
    replace hraw := Dict.mem_of_lookup_ofList hraw
    simp only [List.mem_cons, Prod.mk.injEq, List.not_mem_nil, or_false]
      at hraw
    rcases hraw with ⟨rfl, rfl⟩ | ⟨rfl, rfl⟩ | ⟨rfl, rfl⟩
    all_goals
      obtain rfl : ParamType.str = type := Option.some.inj htype
      exact .text _

/-- The certificate of a web server, with these RDNs after its name. -/
def webCertWith (rdns : String) : Dict String Val := Dict.ofList
  [("subject", .str (subjectDN "web.example.com" rdns)),
   ("cacn", .str "ipa"), ("status", .str "VALID"),
   ("serial_number", .int 11)] (by simp)

/-- A reply with one certificate, of an organisational unit. -/
def webUnitReply : FindReply :=
  .ofList [webCertWith "OU=Systems,O=EXAMPLE.COM"]

theorem webTask_reason :
    ¬webTask.ansibleModule.Gives "revocation_reason" := by
  rintro ⟨val, hval, hne⟩
  exact hne (Option.some.inj hval).symm

theorem webCertWith_isCertOf (rdns : String) :
    IsCertOf "web.example.com" "ipa" (webCertWith rdns) where
  valid := rfl
  subject := ⟨rdns, rfl⟩
  authority := rfl

/-- A certificate whose subject has an organisational unit is requested on
every run. -/
theorem webTask_requests_again :
    ¬∀ (t : TypedTask .cert) (reply : FindReply) (cert : Dict String Val)
      (p text ca : String), t.state = .present → ',' ∉ p.toList →
      (text = p ∨ ∃ rdns, text = subjectDN p rdns) →
      t.ansibleModule.params.lookup "principal" = some (.str text) →
      t.ansibleModule.params.lookup "cacn" = some (.str ca) →
      ¬t.ansibleModule.Gives "revocation_reason" → cert ∈ reply.result →
      IsCertOf p ca cert → t.SettledBy reply p ca := by
  intro hidempotent
  have hqueue : ∃ found q entry,
      Client.cert.find webTask.ansibleModule webUnitReply = .ok found ∧
      Client.cert.queueRequests webTask.ansibleModule found = .ok q ∧
      q.entries = [entry] ∧
      entry.request.method = Client.cert.method .add :=
    ⟨_, _, _, rfl, rfl, rfl, rfl⟩
  obtain ⟨found, q, entry, hfind, hqueue, hentries, -⟩ := hqueue
  obtain ⟨found', -, -, -, hfind', -, hempty, -⟩ := hidempotent webTask
    webUnitReply _ "web.example.com" "web.example.com" "ipa" rfl (by simp)
    (Or.inl rfl) rfl rfl webTask_reason List.mem_cons_self
    (webCertWith_isCertOf "OU=Systems,O=EXAMPLE.COM")
  obtain rfl := Except.ok.inj (hfind.symm.trans hfind')
  obtain rfl := Except.ok.inj (hqueue.symm.trans hempty)
  contradiction

/-- Of two certificates, the last one decides. -/
theorem webTask_idempotent_iff :
    webTask.SettledBy (.ofList [webCertWith "OU=Systems,O=EXAMPLE.COM",
      webCertWith "O=EXAMPLE.COM"]) "web.example.com" "ipa" := by
  have hstatus : ∀ rdns, (webCertWith rdns).lookup "status" ≠ none := by
    intro rdns
    have hvalid : (webCertWith rdns).lookup "status" = some (.str "VALID") :=
      rfl
    simp [hvalid]
  refine (cert_request_idempotent_iff (t := webTask) rfl (by simp)
    (Or.inl rfl) rfl rfl webTask_reason List.mem_cons_self
    (webCertWith_isCertOf _)).mpr
    ⟨?_, webCertWith "O=EXAMPLE.COM", "O=EXAMPLE.COM", rfl, rfl, rfl,
      Or.inl ⟨⟨_, rfl⟩, Or.inl rfl⟩⟩
  intro item hitem
  simp only [FindReply.result_ofList, List.mem_cons, List.not_mem_nil,
    or_false] at hitem
  rcases hitem with rfl | rfl <;> exact hstatus _

end FreeipaProv
