import FreeipaProv.CheckMode
import FreeipaProv.DiffAlgebra

/-!
# Changing a certificate authority

Once a certificate authority exists, only its description may be changed.
The `ca` client checks this when it has put the mod request together, before
anything but the find request is posted.
-/

namespace FreeipaProv

open Fallible

/-- The refusal of `CAIPAClient.mod_rewrite_list_changes`. -/
def caRefusal (keys : List String) : Failure :=
  .failJson (pyTuple keys ++ ": " ++
    "Unable to modify CA parameters other than description")

theorem fail_caRefusal (keys : List String) :
    fail (pyTuple keys)
      "Unable to modify CA parameters other than description" =
        caRefusal keys :=
  fail_eq _ (by simp)

/-- The keys of a request that a mod request may not carry. -/
def caForbidden (request : Request) : List String :=
  request.item.keys.filter fun key => key ≠ "all" ∧ key ≠ "description"

theorem caModRewriteListChanges_of_mod {request : Request}
    (hmethod : request.method = "ca_mod") :
    caModRewriteListChanges request =
      if caForbidden request = [] then .ok request
      else .error (caRefusal (caForbidden request)) := by
  rw [caModRewriteListChanges, if_neg (not_not_intro hmethod)]
  change (if 0 < (caForbidden request).length then
    Except.error (fail (pyTuple (caForbidden request)) _)
    else Except.ok request) = _
  rw [fail_caRefusal]
  cases caForbidden request <;> simp

theorem caForbidden_eq_nil_iff {request : Request} :
    caForbidden request = [] ↔
      ∀ key ∈ request.item.keys, key = "description" ∨ key = "all" := by
  rw [caForbidden, List.filter_eq_nil_iff]
  refine forall₂_congr fun key _ => ?_
  by_cases hall : key = "all" <;> simp [hall]

section Guard

variable {m : AnsibleModule} {reply : FindReply} {found : Found}
  {obj : Dict String Val}

/-- Certificate authorities have no list attributes. -/
theorem FindSteps.ca_lists (steps : FindSteps .ca m reply found obj)
    (side : Side) (key : String) :
    (found.diffs.side side).lookup key = none := by
  have hlist : ∀ key ∈ caClass.kwArgs.keys,
      caClass.paramType key ≠ some .list := by decide +kernel
  have hdiffs := Client.computeChanges_eq steps.diffs (by simp)
  apply ClientClass.diff_list_key hdiffs
  intro htype
  exact hlist key (ClientClass.mem_kwArgs_of_type htype) htype

theorem FindSteps.mem_caItem (steps : FindSteps .ca m reply found obj)
    {key : String} :
    key ∈ (modRewriteListChanges (Client.ca.baseItem found.diffs)).keys ↔
      key = "all" ∨ (key ∈ caClass.baseKeys ∧
        found.diffs.scalars.lookup key ≠ none) := by
  have hadd : (Client.ca.baseItem found.diffs).addattr.isEmpty = true := by
    rw [Dict.isEmpty_iff]
    intro key
    rw [(lookup_baseItem .ca found.diffs key).1]
    exact ite_eq_right_iff.mpr fun _ => steps.ca_lists .add key
  have hdel : (Client.ca.baseItem found.diffs).delattr.isEmpty = true := by
    rw [Dict.isEmpty_iff]
    intro key
    rw [(lookup_baseItem .ca found.diffs key).2.1]
    exact ite_eq_right_iff.mpr fun _ => steps.ca_lists .del key
  have hitem : modRewriteListChanges (Client.ca.baseItem found.diffs) =
      (Client.ca.baseItem found.diffs).scalars.insert "all" (.bool true) := by
    rw [modRewriteListChanges]
    simp [hadd, hdel]
  rw [hitem, ← AList.mem_keys, AList.mem_insert]
  refine or_congr_right ?_
  rw [AList.mem_keys, Dict.fst_mem_keys, ← Option.ne_none_iff_exists',
    (lookup_baseItem .ca found.diffs key).2.2]
  change (if key ∈ caClass.baseKeys then _ else none) ≠ none ↔ _
  split_ifs with hkey <;> simp [hkey]

/-- A base attribute other than the description is in the base request of a
run that has it in its diff. -/
theorem FindSteps.caForbidden_baseItem
    (steps : FindSteps .ca m reply found obj) (request : Request)
    (hitem : request.item =
      modRewriteListChanges (Client.ca.baseItem found.diffs)) :
    caForbidden request = [] ↔ ∀ key, caClass.IsAttr key →
      key ≠ "description" → found.diffs.Leaves key := by
  have hbase : ∀ key ∈ caClass.kwArgs.keys,
      caClass.IsAttr key ↔ key ∈ caClass.baseKeys := by decide +kernel
  have hdeclared : ∀ key ∈ caClass.baseKeys, key ∈ caClass.kwArgs.keys ∧
      key ≠ "all" := by decide +kernel
  rw [caForbidden_eq_nil_iff, hitem]
  constructor
  · intro hkeys key hkey hne
    obtain ⟨type, htype⟩ := Option.ne_none_iff_exists'.mp hkey.1
    have hkwArgs := ClientClass.mem_kwArgs_of_type htype
    refine ⟨steps.ca_lists .add key, steps.ca_lists .del key, ?_⟩
    by_contra hval
    have hmem := (hbase key hkwArgs).mp hkey
    rcases hkeys key (steps.mem_caItem.mpr (Or.inr ⟨hmem, hval⟩)) with
      heq | heq
    · exact hne heq
    · exact (hdeclared key hmem).2 heq
  · intro hleaves key hkey
    rcases steps.mem_caItem.mp hkey with heq | ⟨hmem, hval⟩
    · exact Or.inr heq
    · left
      by_contra hne
      have hattr := (hbase key (hdeclared key hmem).1).mpr hmem
      exact hval (hleaves key hattr hne).2.2

theorem ca_baseRequest (m : AnsibleModule) {found : Found}
    (hexists : found.isAbsent = false) :
    ∃ request : Request, request.method = Client.ca.method .mod ∧
      request.item = modRewriteListChanges (Client.ca.baseItem found.diffs) ∧
      Client.ca.baseRequest m found =
        if caForbidden request = [] then .ok request
        else .error (caRefusal (caForbidden request)) := by
  refine ⟨{
    method := Client.ca.method .mod
    name := caClass.modRequestParams m
    item := modRewriteListChanges (Client.ca.baseItem found.diffs) },
    rfl, rfl, ?_⟩
  rw [← caModRewriteListChanges_of_mod rfl, Client.baseRequest]
  simp only [hexists]
  rfl

end Guard

/-- A run on an existing certificate authority that would change anything but
its description, or delete it, fails before anything but the find request is
posted; otherwise a mod request carries the description only. -/
theorem ca_guard {m : AnsibleModule} {reply : FindReply} {found : Found}
    {obj : Dict String Val} (hfind : Client.ca.find m reply = .ok found)
    (hobj : Client.ca.findResult m reply = .ok obj)
    (hattr : ∃ key, caClass.IsAttr key ∧ caClass.cleanedAt obj key ≠ none) :
    (Client.ca.remEnds m found = false →
      (∃ key, caClass.IsAttr key ∧ key ≠ "description" ∧
        ¬found.diffs.Leaves key) →
      ∃ keys, Client.ca.queueRequests m found = .error (caRefusal keys) ∧
        ∀ (σ : Type) (post : Post σ) (server : σ),
          Client.ca.ensure m reply post server = .error (caRefusal keys)) ∧
    ∀ q, Client.ca.queueRequests m found = .ok q → ∀ entry ∈ q.entries,
      entry.request.method = Client.ca.method .mod →
        ∀ key ∈ entry.request.item.keys, key = "description" ∨ key = "all" := by
  obtain ⟨obj', steps⟩ := Client.find_steps hfind
  obtain rfl := Except.ok.inj (steps.selected.symm.trans hobj)
  have hexists : found.isAbsent = false := by
    obtain ⟨key, hkey, hval⟩ := hattr
    rw [← Bool.not_eq_true, Found.isAbsent_iff]
    intro hnone
    have hcurrent : found.responseCleaned.lookup key =
        if key ∈ caClass.paramKeys then none else caClass.cleanedAt obj' key :=
      ClientClass.lookup_mungeResponse steps.current key
    rw [if_neg hkey.2, hnone] at hcurrent
    exact hval hcurrent.symm
  obtain ⟨request, hmethod, hitem, hrequest⟩ :=
    ca_baseRequest m hexists
  have hforbidden := steps.caForbidden_baseItem request hitem
  constructor
  · rintro hends ⟨key, hkey, hne, hdiff⟩
    have hkeys : caForbidden request ≠ [] := fun hnil =>
      hdiff (hforbidden.mp hnil key hkey hne)
    rw [if_neg hkeys] at hrequest
    have hbase : (Client.ca.baseItem found.diffs).isEmpty = false := by
      by_contra hempty
      rw [Bool.not_eq_false, baseItem_isEmpty_iff] at hempty
      apply hkeys
      rw [caForbidden_eq_nil_iff, hitem]
      intro key hkey
      rcases steps.mem_caItem.mp hkey with heq | ⟨hmem, hval⟩
      · exact Or.inr heq
      · exact absurd (hempty key hmem).2.2 hval
    have hqueue : Client.ca.queueRequests m found =
        .error (caRefusal (caForbidden request)) := by
      have hqueues : Client.ca.queuesBase found = true := by
        simp [Client.queuesBase, hbase]
      rw [queueRequests_of_not_remEnds hends, Client.baseEntries,
        if_pos hqueues, hrequest]
      rfl
    refine ⟨_, hqueue, fun σ post server => ?_⟩
    rw [Client.ensure, hfind, ok_bind, hqueue, error_bind]
  · intro q hqueue entry hentry hmod
    by_cases hends : Client.ca.remEnds m found = true
    · have hrem := method_of_remEnds hends hqueue hentry
      rw [hrem] at hmod
      exact absurd hmod (remMethod_ne .ca).2
    · rw [Bool.not_eq_true] at hends
      obtain ⟨-, hbase⟩ := baseRequest_of_method hends hqueue hentry
        (Or.inr hmod)
      rw [hrequest] at hbase
      split_ifs at hbase with hnil
      obtain rfl := Except.ok.inj hbase
      exact caForbidden_eq_nil_iff.mp hnil

/-- A certificate authority that is to get another subject. -/
def vpnSubject : AnsibleModule :=
  caClass.ansibleModule {
    given := Dict.ofList
      [("cn", .str "vpn"),
       ("ipacasubjectdn", .str "CN=VPN CA,O=EXAMPLE.COM")]
    state := .present }

/-- The reply with the certificate authority. -/
def vpnReply : FindReply :=
  .ofList [Dict.ofList
    [("cn", .list [.str "vpn"]), ("description", .list [.str "VPN"]),
     ("ipacasubjectdn", .list [.str "CN=VPN,O=EXAMPLE.COM"])]]

theorem vpnSubject_refused :
    ∃ keys, ∀ (σ : Type) (post : Post σ) (server : σ),
      Client.ca.ensure vpnSubject vpnReply post server =
        .error (caRefusal keys) := by
  have hfind : ∃ found, Client.ca.find vpnSubject vpnReply = .ok found ∧
      Client.ca.remEnds vpnSubject found = false ∧
      found.diffs.scalars.lookup "ipacasubjectdn" =
        some (.str "CN=VPN CA,O=EXAMPLE.COM") := ⟨_, rfl, rfl, rfl⟩
  obtain ⟨found, hfind, hends, hdiff⟩ := hfind
  have hobj : Client.ca.findResult vpnSubject vpnReply =
      .ok (vpnReply.result.getLast?.getD ∅) := rfl
  have hattr : caClass.cleanedAt (vpnReply.result.getLast?.getD ∅)
      "description" = some (.str "VPN") := rfl
  obtain ⟨keys, -, hensure⟩ := (ca_guard hfind hobj
    ⟨"description", by decide, by rw [hattr]; simp⟩).1 hends
    ⟨"ipacasubjectdn", by decide, by decide, fun hleaves => by
      rw [hleaves.2.2] at hdiff
      contradiction⟩
  exact ⟨keys, hensure⟩

end FreeipaProv
