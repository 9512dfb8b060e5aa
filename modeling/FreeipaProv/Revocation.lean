import FreeipaProv.AddOrMod

/-!
# Revoking certificates

In state `absent` the cert client revokes one certificate: the last of the
reply whose status is `VALID`.  So no valid certificate is left exactly when
all valid certificates of the reply have the serial number of that one.
-/

namespace FreeipaProv

open Fallible

/-- The certificates the find filter keeps. -/
def isValid (cert : Dict String Val) : Bool :=
  match cert.lookup "status" with
  | some status => status.pyEq (.str "VALID")
  | none => false

/-- The certificate the client revokes. -/
def lastValid (reply : FindReply) : Option (Dict String Val) :=
  (reply.result.filter isValid).getLast?

/-- A server that revokes the serial number it is told to. -/
structure RevocationServer (σ : Type) where
  post : Post σ
  revoked : σ → Val → Prop
  revoke : ∀ {server server' : σ} {r : Request} {response sn : Val},
    post server r = .ok (response, server') →
    r.method = Client.cert.method .rem → r.name = [sn] →
    ∀ x, revoked server' x ↔ revoked server x ∨ x = sn

theorem cert_findResult {m : AnsibleModule} {reply : FindReply}
    {obj : Dict String Val} (hobj : Client.cert.findResult m reply = .ok obj) :
    obj = (lastValid reply).getD ∅ := by
  obtain ⟨kept, hkept, rfl⟩ := Client.findResult_eq_ok_iff.mp hobj
  have hagree : ∀ cert valid, Client.cert.findFilter m cert = .ok valid →
      isValid cert = valid := by
    intro cert valid hvalid
    obtain ⟨status, hstatus, hvalid⟩ := bind_eq_ok_iff.mp hvalid
    unfold getItem at hstatus
    cases hlookup : cert.lookup "status" with
    | none => simp [hlookup] at hstatus
    | some status' =>
        rw [hlookup] at hstatus
        obtain rfl := Except.ok.inj hstatus
        simpa [isValid, hlookup] using Except.ok.inj hvalid
  rw [lastValid, Fallible.filter_eq_ok_filter hagree hkept]

theorem certMungeResponse_lookup {item munged : Dict String Val}
    (hok : certMungeResponse item = .ok munged) {key : String}
    (hkey : key ≠ "principal") : munged.lookup key = item.lookup key := by
  unfold certMungeResponse at hok
  split at hok
  · obtain ⟨principal, -, hok⟩ := bind_eq_ok_iff.mp hok
    rw [← Except.ok.inj hok, AList.lookup_insert_ne hkey]
  · rw [Except.ok.inj hok]

theorem getItem_eq_ok_iff {item : Dict String Val} {key : String} {val : Val} :
    getItem item key = .ok val ↔ item.lookup key = some val := by
  unfold getItem
  cases item.lookup key <;> simp

/-- The client finds a certificate exactly when the reply has a valid one. -/
theorem FindSteps.cert_isAbsent_iff {m : AnsibleModule} {reply : FindReply}
    {found : Found} {obj : Dict String Val}
    (steps : FindSteps .cert m reply found obj) :
    found.isAbsent = true ↔ lastValid reply = none := by
  have hobj := cert_findResult steps.selected
  have hcurrent : certMungeResponse obj = .ok found.responseCleaned :=
    steps.current
  cases hlast : lastValid reply with
  | none =>
      rw [hlast, Option.getD_none] at hobj
      subst hobj
      rw [Found.isAbsent, ← Except.ok.inj hcurrent]
      exact iff_of_true rfl rfl
  | some cert =>
      rw [hlast, Option.getD_some] at hobj
      subst hobj
      have hvalid : isValid obj = true :=
        (List.mem_filter.mp (List.mem_of_getLast? hlast)).2
      have hpresent : found.isAbsent = false := by
        rw [Found.isAbsent, Dict.isEmpty_eq_false_iff]
        unfold isValid at hvalid
        cases hstatus : obj.lookup "status" with
        | none => simp [hstatus] at hvalid
        | some status =>
            exact ⟨"status", status, by
              rw [certMungeResponse_lookup hcurrent (by decide), hstatus]⟩
      simp [hpresent]

theorem FindSteps.not_isAbsent_of_lastValid
    {m : AnsibleModule} {reply : FindReply} {found : Found}
    {obj cert : Dict String Val} (steps : FindSteps .cert m reply found obj)
    (hlast : lastValid reply = some cert) : found.isAbsent = false := by
  rw [← Bool.not_eq_true, steps.cert_isAbsent_iff, hlast]
  simp

/-- A successful run in state `absent` revokes the serial number of the last
valid certificate, and nothing else. -/
theorem cert_absent_revokes {σ : Type} (srv : RevocationServer σ)
    {m : AnsibleModule} {reply : FindReply} {server : σ}
    {run : Val × Bool × σ} (hstate : m.state = .absent)
    (hreal : m.checkMode = false)
    (hensure : Client.cert.ensure m reply srv.post server = .ok run) :
    match lastValid reply with
    | none => run.2.2 = server
    | some cert => ∃ sn, cert.lookup "serial_number" = some sn ∧
        ∀ x, srv.revoked run.2.2 x ↔ srv.revoked server x ∨ x = sn := by
  obtain ⟨found, hfind, hensure⟩ := bind_eq_ok_iff.mp hensure
  obtain ⟨q, hqueue, hensure⟩ := bind_eq_ok_iff.mp hensure
  obtain ⟨obj, steps⟩ := Client.find_steps hfind
  have hends : Client.cert.remEnds m found = true := by
    simp [Client.remEnds, Client.isRemParamRequest, hstate]
  rw [queueRequests_of_remEnds hends, Client.remQueue] at hqueue
  have hobj := cert_findResult steps.selected
  have hcurrent : certMungeResponse obj = .ok found.responseCleaned :=
    steps.current
  cases hlast : lastValid reply with
  | none =>
      rw [hlast, Option.getD_none] at hobj
      have habsent := steps.cert_isAbsent_iff.mpr hlast
      rw [habsent, Bool.true_or, if_pos rfl] at hqueue
      rw [← Except.ok.inj hqueue] at hensure
      rw [← Except.ok.inj hensure]
  | some cert =>
      rw [hlast, Option.getD_some] at hobj
      subst hobj
      have hpresent := steps.not_isAbsent_of_lastValid hlast
      rw [hpresent, hreal, Bool.or_self, if_neg (by simp)] at hqueue
      obtain ⟨name, hname, hqueue⟩ := bind_eq_ok_iff.mp hqueue
      obtain ⟨item, -, hqueue⟩ := bind_eq_ok_iff.mp hqueue
      obtain ⟨sn, hsn, hname⟩ := bind_eq_ok_iff.mp hname
      rw [getItem_eq_ok_iff,
        certMungeResponse_lookup hcurrent (by decide)] at hsn
      refine ⟨sn, hsn, ?_⟩
      rw [← Except.ok.inj hqueue] at hensure
      simp only [Queue.push, Queue.initial, List.nil_append, processQueue,
        hreal, Bool.false_eq_true, if_false] at hensure
      obtain ⟨⟨response, server'⟩, hpost, hensure⟩ := bind_eq_ok_iff.mp hensure
      rw [← Except.ok.inj hensure]
      exact srv.revoke hpost rfl (Except.ok.inj hname).symm

/-- After a successful run in state `absent` all valid certificates of the
reply are revoked, and no others, exactly when the valid ones are those with
the serial number of the last of them. -/
theorem cert_absent_complete_iff {σ : Type} (srv : RevocationServer σ)
    {m : AnsibleModule} {reply : FindReply} {server : σ}
    {run : Val × Bool × σ} (hstate : m.state = .absent)
    (hreal : m.checkMode = false)
    (hreported : ∀ cert ∈ reply.result, isValid cert = true → ∀ sn,
      cert.lookup "serial_number" = some sn → ¬srv.revoked server sn)
    (hensure : Client.cert.ensure m reply srv.post server = .ok run) :
    (∀ cert ∈ reply.result, ∀ sn, cert.lookup "serial_number" = some sn →
      (isValid cert = true → srv.revoked run.2.2 sn) ∧
        (isValid cert = false → srv.revoked run.2.2 sn →
          srv.revoked server sn)) ↔
    ∀ last, lastValid reply = some last → ∀ cert ∈ reply.result, ∀ sn,
      cert.lookup "serial_number" = some sn →
        (isValid cert = true ↔ last.lookup "serial_number" = some sn) := by
  have hrun := cert_absent_revokes srv hstate hreal hensure
  cases hlast : lastValid reply with
  | none =>
      simp only [hlast] at hrun
      have hnone : ∀ cert ∈ reply.result, isValid cert = false := by
        have hfilter := List.getLast?_eq_none_iff.mp hlast
        simpa using List.filter_eq_nil_iff.mp hfilter
      refine iff_of_true (fun cert hcert sn _ => ?_) (by simp)
      exact ⟨by simp [hnone cert hcert], fun _ hrevoked => hrun ▸ hrevoked⟩
  | some last =>
      simp only [hlast] at hrun
      obtain ⟨target, htarget, hrevoked⟩ := hrun
      have hlastMem := List.mem_filter.mp (List.mem_of_getLast? hlast)
      have hfresh : ¬srv.revoked server target :=
        hreported last hlastMem.1 hlastMem.2 target htarget
      simp only [Option.some.injEq, forall_eq', htarget]
      refine forall₂_congr fun cert hcert => forall₂_congr fun sn hsn => ?_
      rw [hrevoked]
      cases hvalid : isValid cert with
      | true =>
          have hunrevoked := hreported cert hcert hvalid sn hsn
          simp [hunrevoked, eq_comm]
      | false =>
          simp only [Bool.false_eq_true, false_implies, true_and, true_implies,
            false_iff]
          constructor
          · rintro hkept rfl
            exact hfresh (hkept (Or.inr rfl))
          · rintro hne (hrevoked | heq)
            · exact hrevoked
            · exact absurd heq.symm hne

/-- A server that records the serial numbers it is told to revoke. -/
def revocationLog : RevocationServer (List Val) where
  post server r :=
    if r.method = "cert_revoke" then .ok (.dict [], r.name ++ server)
    else .ok (.dict [], server)
  revoked server sn := sn ∈ server
  revoke := by
    intro server server' r response sn hpost hmethod hname x
    have hrevoke : r.method = "cert_revoke" := hmethod
    rw [if_pos hrevoke, hname] at hpost
    have hserver : server' = [sn] ++ server :=
      (Prod.mk.inj (Except.ok.inj hpost)).2.symm
    simp [hserver, or_comm]

/-- The playbook step that ensures no current certificate exists. -/
def noCurrentCert : AnsibleModule :=
  certClass.ansibleModule {
    given := Dict.ofList
      [("principal", .str "CN=web.example.com,O=EXAMPLE.COM"),
       ("cacn", .str "ipa"), ("revocation_reason", .int 4)]
    state := .absent }

/-- A certificate of the subject. -/
def webCert (status : String) (serial : Int) : Dict String Val :=
  Dict.ofList
    [("subject", .str "CN=web.example.com,O=EXAMPLE.COM"),
     ("cacn", .str "ipa"), ("status", .str status),
     ("serial_number", .int serial)] (by simp)

/-- The reply with two valid certificates and an expired one. -/
def twoValidReply : FindReply :=
  .ofList [webCert "VALID" 11, webCert "VALID" 12, webCert "EXPIRED" 10]

/-- The first of the two valid certificates is left. -/
theorem noCurrentCert_incomplete :
    ¬∀ (σ : Type) (srv : RevocationServer σ) (m : AnsibleModule)
      (reply : FindReply) (server : σ) (run : Val × Bool × σ),
      m.state = .absent → m.checkMode = false →
      (∃ reason, m.params.lookup "revocation_reason" = some (.int reason)) →
      (∀ cert ∈ reply.result, isValid cert = true → ∀ sn,
        cert.lookup "serial_number" = some sn → ¬srv.revoked server sn) →
      Client.cert.ensure m reply srv.post server = .ok run →
      ∀ cert ∈ reply.result, ∀ sn, cert.lookup "serial_number" = some sn →
        (isValid cert = true → srv.revoked run.2.2 sn) ∧
          (isValid cert = false → srv.revoked run.2.2 sn →
            srv.revoked server sn) := by
  intro hcomplete
  have hrun : ∃ run,
      Client.cert.ensure noCurrentCert twoValidReply revocationLog.post [] =
        .ok run ∧ run.2.2 = [.int 12] := ⟨_, rfl, rfl⟩
  obtain ⟨run, hensure, hserver⟩ := hrun
  have hleft := (hcomplete _ revocationLog noCurrentCert twoValidReply [] run
    rfl rfl ⟨4, rfl⟩ (fun _ _ _ _ _ => List.not_mem_nil) hensure
    (webCert "VALID" 11) (by simp [twoValidReply]) (.int 11) rfl).1 rfl
  rw [hserver] at hleft
  simp [revocationLog] at hleft

theorem noCurrentCert_complete_iff :
    ∃ run,
      Client.cert.ensure noCurrentCert twoValidReply revocationLog.post [] =
        .ok run ∧
      ((∀ cert ∈ twoValidReply.result, ∀ sn,
        cert.lookup "serial_number" = some sn →
          (isValid cert = true → revocationLog.revoked run.2.2 sn) ∧
            (isValid cert = false → revocationLog.revoked run.2.2 sn →
              revocationLog.revoked [] sn)) ↔
      ∀ last, lastValid twoValidReply = some last →
        ∀ cert ∈ twoValidReply.result, ∀ sn,
          cert.lookup "serial_number" = some sn →
            (isValid cert = true ↔
              last.lookup "serial_number" = some sn)) := by
  have hrun : ∃ run,
      Client.cert.ensure noCurrentCert twoValidReply revocationLog.post [] =
        .ok run := ⟨_, rfl⟩
  obtain ⟨run, hensure⟩ := hrun
  exact ⟨run, hensure, cert_absent_complete_iff revocationLog rfl rfl
    (fun _ _ _ _ _ => List.not_mem_nil) hensure⟩

end FreeipaProv
