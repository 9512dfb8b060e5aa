import FreeipaProv.CheckMode
import FreeipaProv.DeclaredKeys

/-!
# Requesting and revoking certificates

The `cert` client requests a certificate where the one it finds differs from
the task, and revokes the one it finds in state `absent`.  Both requests need
a parameter of the task.
-/

namespace FreeipaProv

open Fallible

/-! ## The parameters a request needs -/

/-- The task gives the parameter a value. -/
def AnsibleModule.Gives (m : AnsibleModule) (key : String) : Prop :=
  ∃ val, m.params.lookup key = some val ∧ val ≠ .none

/-- The certificate the client selects is not the one the task asks for. -/
def AnsibleModule.CertDiffers (m : AnsibleModule) (reply : FindReply) : Prop :=
  ∃ desired current, Client.cert.mungeModuleParams m = .ok desired ∧
    Client.cert.mungeResponse m ((lastValid reply).getD ∅) = .ok current ∧
    ∃ key ∈ certClass.baseKeys,
      certClass.Differs m.state desired current key

section Preconditions

variable {m : AnsibleModule} {reply : FindReply} {found : Found}
  {obj : Dict String Val}

theorem cert_remEnds_iff (m : AnsibleModule) (found : Found) :
    Client.cert.remEnds m found = true ↔ m.state = .absent := by
  simp [Client.remEnds, Client.isRemParamRequest]

theorem not_gives {key : String} (hparam : m.params.lookup key ≠ none)
    (hgives : ¬m.Gives key) : m.params.lookup key = some .none := by
  obtain ⟨val, hval⟩ := Option.ne_none_iff_exists'.mp hparam
  by_contra hne
  refine hgives ⟨val, hval, ?_⟩
  rintro rfl
  exact hne hval

/-- The desired revocation reason is the one the task gives. -/
theorem FindSteps.lookup_reason (steps : FindSteps .cert m reply found obj) :
    found.canonParams.lookup "revocation_reason" =
      certClass.cleanedAt m.params "revocation_reason" := by
  have hoverrides :
      ¬Client.cert.Overrides m.state "revocation_reason" := by
    simp [Client.Overrides, Client.cls, certClass]
  have hdefault : (certClass.argumentSpec.lookup "revocation_reason").bind
      ArgSpec.default = none := by rfl
  rw [Client.lookup_mungeModuleParams steps.desired hoverrides]
  change (if "revocation_reason" ∈ certClass.paramKeys then none else _).or
    (if m.state = .exact then (certClass.argumentSpec.lookup
      "revocation_reason").bind ArgSpec.default else none) = _
  rw [if_neg (by decide), hdefault, ite_self, Option.or_none]
  rfl

theorem FindSteps.gives_reason (steps : FindSteps .cert m reply found obj)
    (hval : found.canonParams.lookup "revocation_reason" ≠ none) :
    m.Gives "revocation_reason" := by
  rw [steps.lookup_reason] at hval
  obtain ⟨val, hval⟩ := Option.ne_none_iff_exists'.mp hval
  obtain ⟨raw, type, hraw, -, hclean⟩ := ClientClass.cleanedAt_eq_some hval
  refine ⟨raw, hraw, ?_⟩
  rintro rfl
  rw [cleanValue_none] at hclean
  simp at hclean

theorem FindSteps.lookup_reason_of_not_gives
    (steps : FindSteps .cert m reply found obj)
    (hparam : m.params.lookup "revocation_reason" ≠ none)
    (hgives : ¬m.Gives "revocation_reason") :
    found.canonParams.lookup "revocation_reason" = none := by
  rw [steps.lookup_reason, ClientClass.cleanedAt, not_gives hparam hgives,
    Option.bind_some, Option.bind_eq_none_iff]
  intro type _
  rw [cleanValue_none]
  rfl

theorem cert_remQueue (hreal : m.checkMode = false)
    (hexists : found.isAbsent = false) :
    Client.cert.remQueue m found = (do
      let sn ← getItem found.responseCleaned "serial_number"
      let item ← certRemRequestItem found
      .ok (Queue.initial.push {
        name := "rem"
        request := {
          method := Client.cert.method .rem, name := [sn], item } })) := by
  rw [Client.remQueue, if_neg (by simp [hexists, hreal])]
  simp only [Client.remRequestParams, Client.remRequestItem]
  cases getItem found.responseCleaned "serial_number" <;> rfl

theorem certRemRequestItem_of_none
    (hnone : found.canonParams.lookup "revocation_reason" = none) :
    certRemRequestItem found = .error (.failJson
      ("revoke certificate" ++ ": " ++
        "revocation_reason parameter required")) := by
  rw [certRemRequestItem, hnone]
  exact congrArg Except.error (fail_eq _ (by simp))

theorem FindSteps.certDiffers_iff (steps : FindSteps .cert m reply found obj) :
    m.CertDiffers reply ↔ ∃ key ∈ certClass.baseKeys, certClass.Differs m.state
      found.canonParams found.responseCleaned key := by
  have hcurrent := steps.current
  rw [cert_findResult steps.selected] at hcurrent
  constructor
  · rintro ⟨desired, current, hdesired, hcurrent', hdiffers⟩
    obtain rfl := Except.ok.inj (steps.desired.symm.trans hdesired)
    obtain rfl := Except.ok.inj (hcurrent.symm.trans hcurrent')
    exact hdiffers
  · intro hdiffers
    exact ⟨_, _, steps.desired, hcurrent, hdiffers⟩

theorem FindSteps.lookup_serial (steps : FindSteps .cert m reply found obj)
    {cert : Dict String Val} (hlast : lastValid reply = some cert) :
    found.responseCleaned.lookup "serial_number" =
      cert.lookup "serial_number" := by
  have hobj := cert_findResult steps.selected
  rw [hlast, Option.getD_some] at hobj
  subst hobj
  exact certMungeResponse_lookup steps.current (by decide)

theorem cert_queue_of_needed (hstate : m.state ≠ .absent)
    (hneeded : Client.cert.queuesBase found = true) {req : Val}
    (hreq : m.params.lookup "req" = some req) :
    ∃ q, Client.cert.queueRequests m found = .ok q ∧ ∃ entry ∈ q.entries,
      entry.request.method = Client.cert.method .add := by
  have hends : Client.cert.remEnds m found = false := by
    rw [← Bool.not_eq_true, cert_remEnds_iff]
    exact hstate
  have hbase : ∃ request,
      Client.cert.baseRequest m found = .ok request ∧
      request.method = Client.cert.method .add := by
    refine ⟨{
      method := if found.isAbsent then Client.cert.method .add
        else Client.cert.method .mod
      name := [req]
      item := modRewriteListChanges (Client.cert.baseItem found.diffs) },
      ?_, ite_self _⟩
    simp only [Client.baseRequest, Client.modRequestParams,
      certModRequestParams, hreq, ok_bind]
  obtain ⟨request, hrequest, hmethod⟩ := hbase
  have hentries : Client.cert.baseEntries m found =
      .ok [{ name := "add_or_mod", request }] := by
    rw [Client.baseEntries, if_pos hneeded, hrequest, ok_bind]
  refine ⟨_, by rw [queueRequests_of_not_remEnds hends, hentries]; rfl,
    { name := "add_or_mod", request }, ?_, hmethod⟩
  exact List.mem_append_left _ List.mem_cons_self

theorem FindSteps.gives_reason_of_revoke
    (steps : FindSteps .cert m reply found obj) (hreal : m.checkMode = false)
    {q : Queue} (hqueue : Client.cert.queueRequests m found = .ok q)
    {entry : QueueEntry} (hentry : entry ∈ q.entries)
    (hmethod : entry.request.method = Client.cert.method .rem) :
    m.Gives "revocation_reason" := by
  by_cases hstate : m.state = .absent
  · rw [queueRequests_of_remEnds ((cert_remEnds_iff m found).mpr hstate)]
      at hqueue
    by_cases hexists : found.isAbsent = true
    · rw [Client.remQueue, if_pos (by simp [hexists])] at hqueue
      rw [← Except.ok.inj hqueue] at hentry
      exact absurd hentry List.not_mem_nil
    · rw [Bool.not_eq_true] at hexists
      rw [cert_remQueue hreal hexists] at hqueue
      obtain ⟨sn, -, hqueue⟩ := bind_eq_ok_iff.mp hqueue
      obtain ⟨item, hitem, -⟩ := bind_eq_ok_iff.mp hqueue
      apply steps.gives_reason
      intro hnone
      rw [certRemRequestItem_of_none hnone] at hitem
      contradiction
  · have hends : Client.cert.remEnds m found = false := by
      rw [← Bool.not_eq_true, cert_remEnds_iff]
      exact hstate
    rcases queueEntry_cases hends hqueue hentry with
      ⟨-, hrequest⟩ | ⟨-, hflag⟩ | ⟨-, hroute⟩
    · obtain ⟨name, -, hrequest⟩ := Client.baseRequest_eq_ok hrequest
      rw [hrequest] at hmethod
      exact absurd (hmethod.symm.trans (ite_self _)) (remMethod_ne .cert).1
    · rw [flagEntries_eq_nil .cert rfl] at hflag
      contradiction
    · contradiction

/-- Outside check mode, a certificate is requested or revoked only with the
parameter that needs, and a run that lacks it fails before it posts anything
but the find request.  This holds unless a request is needed without `req`, or
a certificate without serial number is to be revoked for no reason. -/
theorem cert_preconditions_iff (hreal : m.checkMode = false)
    (hparams : ∀ key ∈ certClass.kwArgs.keys, m.params.lookup key ≠ none)
    (hfind : Client.cert.find m reply = .ok found) :
    ((∀ q, Client.cert.queueRequests m found = .ok q → ∀ entry ∈ q.entries,
        (entry.request.method = Client.cert.method .add → m.Gives "req") ∧
        (entry.request.method = Client.cert.method .rem →
          m.Gives "revocation_reason")) ∧
      (m.state ≠ .absent → Client.cert.queuesBase found = true →
        ¬m.Gives "req" → ∃ msg, ∀ (σ : Type) (post : Post σ) (server : σ),
          Client.cert.ensure m reply post server = .error (.failJson msg)) ∧
      (m.state = .absent → found.isAbsent = false →
        ¬m.Gives "revocation_reason" →
        ∃ msg, ∀ (σ : Type) (post : Post σ) (server : σ),
          Client.cert.ensure m reply post server = .error (.failJson msg))) ↔
    (m.state ≠ .absent → ¬m.Gives "req" →
      reply.result ≠ [] ∧ ¬m.CertDiffers reply) ∧
    (m.state = .absent → ¬m.Gives "revocation_reason" →
      ∀ cert, lastValid reply = some cert →
        cert.lookup "serial_number" ≠ none) := by
  obtain ⟨obj, steps⟩ := Client.find_steps hfind
  have hreq : m.params.lookup "req" ≠ none := hparams "req" (by decide)
  have hreason : m.params.lookup "revocation_reason" ≠ none :=
    hparams "revocation_reason" (by decide)
  have hneeds : m.state ≠ .absent → (Client.cert.queuesBase found = true ↔
      reply.result = [] ∨ m.CertDiffers reply) := by
    intro hstate
    rw [steps.certDiffers_iff]
    exact steps.queuesBase_iff fun hends => hstate hends.2
  have hensure : ∀ {err : Failure},
      Client.cert.queueRequests m found = .error err →
      ∀ (σ : Type) (post : Post σ) (server : σ),
        Client.cert.ensure m reply post server = .error err := by
    intro err herr σ post server
    rw [Client.ensure, hfind, ok_bind, herr, error_bind]
  have hrevoke : m.state = .absent →
      Client.cert.queueRequests m found = Client.cert.remQueue m found :=
    fun hstate => queueRequests_of_remEnds ((cert_remEnds_iff m found).mpr hstate)
  constructor
  · rintro ⟨hgiven, -, hfails⟩
    constructor
    · intro hstate hgives
      obtain ⟨req, hreq⟩ := Option.ne_none_iff_exists'.mp hreq
      by_contra hneeded
      have hqueues : Client.cert.queuesBase found = true := by
        rw [hneeds hstate]
        tauto
      obtain ⟨q, hqueue, entry, hentry, hmethod⟩ :=
        cert_queue_of_needed hstate hqueues hreq
      exact hgives ((hgiven q hqueue entry hentry).1 hmethod)
    · intro hstate hgives cert hlast hserial
      have hexists := steps.not_isAbsent_of_lastValid hlast
      rw [← steps.lookup_serial hlast] at hserial
      obtain ⟨msg, herr⟩ := hfails hstate hexists hgives
      have hqueue : Client.cert.queueRequests m found =
          .error (.keyError "serial_number") := by
        rw [hrevoke hstate, cert_remQueue hreal hexists, getItem, hserial]
        rfl
      have herr' := herr Unit acceptingPost ()
      rw [hensure hqueue] at herr'
      simp at herr'
  · rintro ⟨hrequests, hrevokes⟩
    refine ⟨fun q hqueue entry hentry => ⟨?_, ?_⟩, ?_, ?_⟩
    · intro hmethod
      by_contra hgives
      by_cases hstate : m.state = .absent
      · have hrem := method_of_remEnds ((cert_remEnds_iff m found).mpr hstate)
          hqueue hentry
        rw [hrem] at hmethod
        exact (remMethod_ne .cert).1 hmethod
      · have hends : Client.cert.remEnds m found = false := by
          rw [← Bool.not_eq_true, cert_remEnds_iff]
          exact hstate
        obtain ⟨hqueues, -⟩ := baseRequest_of_method hends hqueue hentry
          (Or.inl hmethod)
        obtain ⟨hreply, hsame⟩ := hrequests hstate hgives
        rcases (hneeds hstate).mp hqueues with hnil | hdiffers
        · exact hreply hnil
        · exact hsame hdiffers
    · intro hmethod
      exact steps.gives_reason_of_revoke hreal hqueue hentry hmethod
    · intro hstate hqueues hgives
      obtain ⟨hreply, hsame⟩ := hrequests hstate hgives
      rcases (hneeds hstate).mp hqueues with hnil | hdiffers
      · exact absurd hnil hreply
      · exact absurd hdiffers hsame
    · intro hstate hexists hgives
      have hvalid : lastValid reply ≠ none := by
        rw [ne_eq, ← steps.cert_isAbsent_iff, hexists]
        simp
      obtain ⟨cert, hlast⟩ := Option.ne_none_iff_exists'.mp hvalid
      have hserial := hrevokes hstate hgives cert hlast
      rw [← steps.lookup_serial hlast] at hserial
      obtain ⟨sn, hsn⟩ := Option.ne_none_iff_exists'.mp hserial
      have hqueue : Client.cert.queueRequests m found = .error (.failJson
          ("revoke certificate" ++ ": " ++
            "revocation_reason parameter required")) := by
        rw [hrevoke hstate, cert_remQueue hreal hexists, getItem, hsn, ok_bind,
          certRemRequestItem_of_none
            (steps.lookup_reason_of_not_gives hreason hgives), error_bind]
      exact ⟨_, hensure hqueue⟩

end Preconditions

/-- A certificate that is to exist, without a request for it. -/
def certNoRequest : AnsibleModule :=
  certClass.ansibleModule {
    given := Dict.ofList
      [("cacn", .str "ipa"), ("principal", .str "web.example.com")]
    state := .present }

/-- A certificate is requested with nothing to sign. -/
theorem certNoRequest_posts :
    ¬∀ (m : AnsibleModule) (reply : FindReply) (found : Found) (q : Queue),
      m.checkMode = false →
      (∀ key ∈ certClass.kwArgs.keys, m.params.lookup key ≠ none) →
      Client.cert.find m reply = .ok found →
      Client.cert.queueRequests m found = .ok q → ∀ entry ∈ q.entries,
        (entry.request.method = Client.cert.method .add → m.Gives "req") ∧
        (entry.request.method = Client.cert.method .rem →
          m.Gives "revocation_reason") := by
  intro hneeds
  have hqueue : ∃ found q entry,
      Client.cert.find certNoRequest emptyReply = .ok found ∧
      Client.cert.queueRequests certNoRequest found = .ok q ∧
      q.entries = [entry] ∧
      entry.request.method = Client.cert.method .add :=
    ⟨_, _, _, rfl, rfl, rfl, rfl⟩
  obtain ⟨found, q, entry, hfind, hqueue, hentries, hmethod⟩ := hqueue
  obtain ⟨val, hval, hne⟩ := (hneeds certNoRequest emptyReply found q rfl
    (by decide +kernel) hfind hqueue entry (by simp [hentries])).1 hmethod
  have hnone : certNoRequest.params.lookup "req" = some .none := rfl
  exact hne (Option.some.inj (hval.symm.trans hnone))

theorem noCurrentCert_preconditions_iff :
    ∃ found, Client.cert.find noCurrentCert twoValidReply = .ok found ∧
      ∀ q, Client.cert.queueRequests noCurrentCert found = .ok q →
        ∀ entry ∈ q.entries,
          (entry.request.method = Client.cert.method .add →
            noCurrentCert.Gives "req") ∧
          (entry.request.method = Client.cert.method .rem →
            noCurrentCert.Gives "revocation_reason") := by
  have hfind : ∃ found,
      Client.cert.find noCurrentCert twoValidReply = .ok found := ⟨_, rfl⟩
  obtain ⟨found, hfind⟩ := hfind
  refine ⟨found, hfind, ((cert_preconditions_iff rfl (by decide +kernel)
    hfind).mpr ⟨fun hstate => absurd rfl hstate, fun _ hgives => ?_⟩).1⟩
  exact absurd ⟨.int 4, rfl, by simp⟩ hgives

end FreeipaProv
