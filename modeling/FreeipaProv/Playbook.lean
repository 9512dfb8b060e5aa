import FreeipaProv.Converge
import FreeipaProv.Lib.Targets

/-!
# Playbooks of CA ACL and DNS zone tasks

Tasks on different objects of one server, in state `present` or `exact`.
However many of them have stopped half-way, and in whatever order they ran, a
pass that succeeds leaves every object as the first pass was to leave it.
-/

namespace FreeipaProv

open Fallible Reconcile Targets

/-- A server with the attributes of all its objects, each seen under its client
and name. -/
structure Directory (σ : Type) where
  post : Post σ
  find : Client → AnsibleModule → σ → FindReply
  view : σ → Client × List Val → Option ObjState
  created : ∀ {cl : Client} {server server' : σ} {r : Request} {response : Val},
    post server r = .ok (response, server') → r.method = cl.method .add →
    cl.Understood r → view server (cl, r.name) = none →
    view server' (cl, r.name) = some (Store.blank.applyAll (cl.edits r))
  updated : ∀ {cl : Client} {server server' : σ} {r : Request} {response : Val}
    {obj : ObjState}, post server r = .ok (response, server') →
    r.method ∈ cl.updateMethods → cl.Understood r →
    view server (cl, r.name) = some obj →
    view server' (cl, r.name) = some (obj.applyAll (cl.edits r))
  frame : ∀ {cl : Client} {server server' : σ} {r : Request} {response : Val},
    post server r = .ok (response, server') →
    r.method = cl.method .add ∨ r.method ∈ cl.updateMethods →
    ∀ k, k ≠ (cl, r.name) → view server' k = view server k
  missing : ∀ {cl : Client} {m : AnsibleModule} {server : σ},
    view server (cl, cl.cls.modRequestParams m) = none →
    (find cl m server).result = []
  reported : ∀ {cl : Client} {m : AnsibleModule} {server : σ} {obj : ObjState},
    view server (cl, cl.cls.modRequestParams m) = some obj →
    ∃ item, (find cl m server).result.getLast? = some item ∧
      cl.Reports obj item ∧ ∀ key, cl.cls.enablekey = some key →
        ∃ b raw, item.lookup key = some raw ∧ ApiScalar .bool (.bool b) raw

/-- A task of a playbook. -/
structure Play where
  cl : Client
  task : TypedTask cl
  client : cl = .caacl ∨ cl = .dnszone
  state : task.state = .present ∨ task.state = .exact
  real : task.checkMode = false

/-- What the task is about. -/
def Play.object (p : Play) : Client × List Val :=
  (p.cl, p.cl.cls.modRequestParams p.task.ansibleModule)

/-- What the task makes of the object, or of none. -/
def Play.goal (p : Play) (obj : Option ObjState) : Option ObjState :=
  some (p.task.goal (obj.getD Store.blank))

theorem Play.flag (p : Play) :
    p.cl ≠ .user ∧ ∃ key, p.cl.cls.enablekey = some key := by
  rcases p.client with hcl | hcl
  · rw [hcl]
    exact ⟨by decide, _, rfl⟩
  · rw [hcl]
    exact ⟨by decide, _, rfl⟩

namespace Directory

variable {σ : Type} (d : Directory σ)

/-- The server of one object. -/
def server (cl : Client) (m : AnsibleModule) : AttrServer cl m σ where
  post := d.post
  find := d.find cl m
  view s := d.view s (cl, cl.cls.modRequestParams m)
  created := by
    intro s s' r response hpost hmethod hname hunderstood hview
    rw [← hname] at hview ⊢
    exact d.created hpost hmethod hunderstood hview
  updated := by
    intro s s' r response obj hpost hmethod hname hunderstood hview
    rw [← hname] at hview ⊢
    exact d.updated hpost hmethod hunderstood hview
  missing := d.missing
  reported := d.reported

/-- `ensure` of a task. -/
def ensure (p : Play) (s : σ) : Except Failure (Val × Bool × σ) :=
  p.cl.ensure p.task.ansibleModule (d.find p.cl p.task.ansibleModule s) d.post s

/-- The server after a task that succeeds. -/
def play (s : σ) (p : Play) : Except Failure σ :=
  (d.ensure p s).map fun run => run.2.2

/-- The server after the first requests of a task, or all of them. -/
def Interrupted (p : Play) (s s' : σ) : Prop :=
  ∃ found q before after,
    p.cl.find p.task.ansibleModule (d.find p.cl p.task.ansibleModule s) =
        .ok found ∧
      p.cl.queueRequests p.task.ansibleModule found = .ok q ∧
      q.entries = before ++ after ∧
      runAll (postEntry d.post) s before = .ok s'

variable {d} {p : Play} {s s' : σ}

theorem interrupted_of_play (hplay : d.play s p = .ok s') :
    d.Interrupted p s s' := by
  obtain ⟨run, hensure, rfl⟩ := map_eq_ok_iff.mp hplay
  obtain ⟨found, q, hfind, hqueue, hrun⟩ := ensure_runAll p.real hensure
  exact ⟨found, q, q.entries, [], hfind, hqueue, (List.append_nil _).symm, hrun⟩

/-! ## One task -/

/-- The requests of a task are about its object. -/
theorem entries_named {found : Found} {q : Queue}
    (hfind : p.cl.find p.task.ansibleModule
      (d.find p.cl p.task.ansibleModule s) = .ok found)
    (hqueue : p.cl.queueRequests p.task.ansibleModule found = .ok q) :
    ∀ entry ∈ q.entries, (p.cl, entry.request.name) = p.object ∧
      (entry.request.method = p.cl.method .add ∨
        entry.request.method ∈ p.cl.updateMethods) := by
  obtain ⟨huser, key, hflag⟩ := p.flag
  obtain ⟨item, steps⟩ := Client.find_steps hfind
  let srv := d.server p.cl p.task.ansibleModule
  have hmethods :=
    srv.queue_methods huser hflag p.state p.real steps hqueue
  intro entry hentry
  have haddresses :=
    srv.addresses huser hflag p.state p.real steps hqueue hentry
  constructor
  · rw [haddresses.1]
    rfl
  · by_cases hview : srv.view s = none
    · obtain ⟨first, rest, hentries, hadd, hrest⟩ := hmethods.1 hview
      rw [hentries] at hentry
      rcases List.mem_cons.mp hentry with rfl | hentry
      · exact Or.inl hadd
      · exact Or.inr (hrest entry hentry)
    · exact Or.inr (hmethods.2 hview entry hentry)

theorem view_of_interrupted (hstopped : d.Interrupted p s s')
    (k : Client × List Val) (hk : k ≠ p.object) : d.view s' k = d.view s k := by
  obtain ⟨found, q, before, after, hfind, hqueue, hsplit, hrun⟩ := hstopped
  have hnamed := entries_named hfind hqueue
  apply runAll_invariant (fun mid => d.view mid k = d.view s k) _ rfl hrun
  intro entry hentry first next hfirst hpost
  obtain ⟨response, hpost⟩ := postEntry_eq_ok hpost
  obtain ⟨hname, hmethod⟩ := hnamed entry
    (by rw [hsplit]; exact List.mem_append_left _ hentry)
  rw [d.frame hpost hmethod k (by rw [hname]; exact hk)]
  exact hfirst

theorem view_of_play (hplay : d.play s p = .ok s') :
    d.view s' p.object = p.goal (d.view s p.object) := by
  obtain ⟨run, hensure, rfl⟩ := map_eq_ok_iff.mp hplay
  obtain ⟨huser, key, hflag⟩ := p.flag
  exact (d.server p.cl p.task.ansibleModule).view_run huser hflag p.state
    p.real hensure

variable {plays : List Play}

theorem acts (d : Directory σ) (plays : List Play) :
    Acts d.play d.view Play.object Play.goal plays where
  reaches _ _ _ _ hplay := view_of_play hplay
  frame _ _ _ _ hplay := view_of_interrupted (interrupted_of_play hplay)

end Directory

end FreeipaProv
