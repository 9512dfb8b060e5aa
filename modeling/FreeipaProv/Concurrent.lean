import FreeipaProv.Lib.Accumulate
import FreeipaProv.ListServer

/-!
# Concurrent runs in state `present`

The playbooks run a task for several hosts at once, so that several runs work
on one object.  Each finds the object, queues its requests and posts them,
while others do the same.  In state `present` the requests of a run only add
values to lists, so the runs are an instance of concurrent runs that only
add: no value is lost.
-/

namespace FreeipaProv

open Fallible Reconcile

/-- The server, and what each run that has found the object still has to
post. -/
structure Runs (ι σ : Type) where
  server : σ
  queued : ι → Option (List QueueEntry)

def Runs.initial {ι σ : Type} (server : σ) : Runs ι σ where
  server
  queued _ := none

section Runs

variable {cl : Client} {name : List Val} {ι σ : Type}

/-- The server after a run of a task. -/
def ListServer.ensure (srv : ListServer cl name σ) (t : ι → TypedTask cl)
    (server : σ) (i : ι) : Except Failure σ :=
  (cl.ensure (t i).ansibleModule (srv.find server) srv.post server).map
    fun run => run.2.2

/-- A run finds the object and queues its requests, or posts the next one. -/
inductive Runs.Step [DecidableEq ι] (t : ι → TypedTask cl)
    (srv : ListServer cl name σ) : Runs ι σ → Runs ι σ → Prop where
  | find {runs : Runs ι σ} {i : ι} {found : Found} {q : Queue}
      (hwaiting : runs.queued i = none)
      (hfind : cl.find (t i).ansibleModule (srv.find runs.server) = .ok found)
      (hqueue : cl.queueRequests (t i).ansibleModule found = .ok q) :
      Step t srv runs
        { runs with queued := Function.update runs.queued i (some q.entries) }
  | post {runs : Runs ι σ} {i : ι} {entry : QueueEntry}
      {rest : List QueueEntry} {server : σ}
      (hqueued : runs.queued i = some (entry :: rest))
      (hpost : postEntry srv.post runs.server entry = .ok server) :
      Step t srv runs
        { server, queued := Function.update runs.queued i (some rest) }

/-! ## The requests only add -/

/-- The request names the object and takes nothing off the list. -/
structure ListServer.OnlyAdds (srv : ListServer cl name σ) (key : String)
    (entry : QueueEntry) : Prop where
  method : entry.request.method ≠ cl.method .rem
  name : name <+: entry.request.name
  kept : ∀ val, .del key val ∉ cl.listEdits srv.stored entry.request

/-- The values a request adds to a list. -/
def ListServer.added (srv : ListServer cl name σ) (key : String)
    (entry : QueueEntry) : Set String :=
  {val | .add key val ∈ cl.listEdits srv.stored entry.request}

variable {srv : ListServer cl name σ} {server : σ} {key : String}

theorem ListServer.lists_post {entry : QueueEntry} {server' : σ}
    (hadds : srv.OnlyAdds key entry)
    (hpost : postEntry srv.post server entry = .ok server') :
    (srv.view server').lists key =
      (srv.view server).lists key ∪ srv.added key entry := by
  obtain ⟨response, hpost⟩ := postEntry_eq_ok hpost
  ext val
  rw [srv.updated hpost hadds.method hadds.name,
    Store.mem_lists_applyAll fun _ => hadds.kept val]
  have hkept := hadds.kept val
  change _ ∨ _ ↔ _ ∨ val ∈ srv.added key entry
  rw [ListServer.added, Set.mem_ofPred_eq]
  tauto

section Queue

variable {t : TypedTask cl} {found : Found} {q : Queue}

theorem Client.mem_entryListEdits_iff {stored : String → String → String}
    {entries : List QueueEntry} {e : Edit String String Atom} :
    e ∈ cl.entryListEdits stored entries ↔
      ∃ entry ∈ entries, e ∈ cl.listEdits stored entry.request :=
  List.mem_flatMap

/-- The queue of a run in state `present` only adds, and adds what the task
wants and the server does not have. -/
theorem ListServer.queue_present (hstate : t.state = .present)
    (hreal : t.checkMode = false)
    (hname : cl.modRequestParams t.ansibleModule = .ok name)
    (hstored : ∀ s, srv.stored key s = s) (hkey : cl.PlainList key)
    (hfind : cl.find t.ansibleModule (srv.find server) = .ok found)
    (hqueue : cl.queueRequests t.ansibleModule found = .ok q) :
    (∀ entry ∈ q.entries, srv.OnlyAdds key entry) ∧
      ∀ val, (∃ entry ∈ q.entries, val ∈ srv.added key entry) ↔
        val ∈ t.wants.lists key ∧ val ∉ (srv.view server).lists key := by
  obtain ⟨item, steps⟩ := Client.find_steps hfind
  have hends := t.remEnds_eq_false (Or.inl hstate) found
  have hedits := steps.mem_queueListEdits hreal hkey.1
    (srv.members_current hname steps hkey) hends hqueue srv.stored
  constructor
  · intro entry hentry
    obtain ⟨hmethod, hnamed⟩ := named_of_queue hends hqueue hname hentry
    refine ⟨hmethod, hnamed, fun val hdel => ?_⟩
    obtain ⟨s, -, ⟨hexact, -⟩ | ⟨habsent, -⟩, -⟩ := (hedits val).2.mp
      (Client.mem_entryListEdits_iff.mpr ⟨entry, hentry, hdel⟩)
    · rw [hstate] at hexact
      contradiction
    · rw [hstate] at habsent
      contradiction
  · intro val
    refine Client.mem_entryListEdits_iff.symm.trans ((hedits val).1.trans ?_)
    simp only [hstate, hstored, ne_eq, reduceCtorEq, not_false_eq_true,
      true_and, exists_eq_right_right]

end Queue

/-! ## One run after the other -/

variable {t : ι → TypedTask cl} {runs runs' : Runs ι σ}

/-- The lists of these clients are reported as the server keeps them. -/
theorem plainList_of_listAttr (hcl : cl = .caacl ∨ cl = .group ∨
    cl = .dnsrecord) (hkey : cl.ListAttr key) : cl.PlainList key := by
  have hkeys : ∀ key ∈ cl.cls.kwArgs.keys, cl.ListAttr key →
      cl.PlainList key := by
    rcases hcl with rfl | rfl | rfl <;> decide +kernel
  exact hkeys key (ClientClass.mem_kwArgs_of_type hkey.2) hkey

theorem ListServer.ensure_eq_ok {i : ι} {server' : σ}
    (hok : srv.ensure t server i = .ok server') :
    ∃ run, cl.ensure (t i).ansibleModule (srv.find server) srv.post server =
      .ok run ∧ run.2.2 = server' := by
  unfold ListServer.ensure at hok
  cases hensure : cl.ensure (t i).ansibleModule (srv.find server) srv.post
      server with
  | error err => simp [hensure, Except.map] at hok
  | ok run =>
      rw [hensure] at hok
      exact ⟨run, rfl, Except.ok.inj hok⟩

/-- After some runs in state `present`, one after the other, a list has its
initial values and those the runs want. -/
theorem ListServer.lists_runAll (hstate : ∀ i, (t i).state = .present)
    (hreal : ∀ i, (t i).checkMode = false)
    (hname : ∀ i, cl.modRequestParams (t i).ansibleModule = .ok name)
    (hstored : ∀ s, srv.stored key s = s) (hkey : cl.PlainList key)
    {order : List ι} {server' : σ}
    (hrun : runAll (srv.ensure t) server order = .ok server') :
    (srv.view server').lists key = (srv.view server).lists key ∪
      ⋃ i ∈ order, (t i).wants.lists key := by
  induction order generalizing server with
  | nil =>
      obtain rfl := Except.ok.inj hrun
      simp
  | cons i rest ih =>
      obtain ⟨mid, hfirst, hrest⟩ := bind_eq_ok_iff.mp hrun
      obtain ⟨run, hensure, rfl⟩ := ListServer.ensure_eq_ok hfirst
      obtain ⟨found, q, hfind, hqueue, hposts⟩ :=
        ensure_runAll (hreal i) hensure
      obtain ⟨item, steps⟩ := Client.find_steps hfind
      have hone := srv.lists_run (hreal i) (hname i) hstored hkey steps
        ((t i).remEnds_eq_false (Or.inl (hstate i)) found) hqueue hposts
      rw [TypedTask.listGoal, hstate i] at hone
      calc (srv.view server').lists key
          = (srv.view run.2.2).lists key ∪
              ⋃ j ∈ rest, (t j).wants.lists key := ih hrest
        _ = (srv.view server).lists key ∪ (t i).wants.lists key ∪
              ⋃ j ∈ rest, (t j).wants.lists key := by rw [hone]
        _ = (srv.view server).lists key ∪
              ⋃ j ∈ i :: rest, (t j).wants.lists key := by
            simp [Set.union_assoc, Set.iUnion_or, Set.iUnion_union_distrib]

/-! ## Runs as an instance -/

variable [DecidableEq ι]

theorem Runs.steps_of_posts {i : ι} {queued : ι → Option (List QueueEntry)}
    {entries : List QueueEntry} (hqueued : queued i = some entries)
    {server' : σ}
    (hrun : runAll (postEntry srv.post) server entries = .ok server') :
    Relation.ReflTransGen (Runs.Step t srv) { server, queued }
      { server := server', queued := Function.update queued i (some []) } := by
  induction entries generalizing server queued with
  | nil =>
      obtain rfl := Except.ok.inj hrun
      rw [← hqueued, Function.update_eq_self]
  | cons entry rest ih =>
      obtain ⟨mid, hpost, hrest⟩ := bind_eq_ok_iff.mp hrun
      have htail := ih (Function.update_self i (some rest) queued) hrest
      rw [Function.update_idem] at htail
      exact .head (.post hqueued hpost) htail

/-- A run that nothing interrupts is one of `ensure`. -/
theorem Runs.steps_of_ensure (hreal : ∀ i, (t i).checkMode = false) {i : ι}
    (hwaiting : runs.queued i = none) {server' : σ}
    (hensure : srv.ensure t runs.server i = .ok server') :
    Relation.ReflTransGen (Runs.Step t srv) runs
      { server := server', queued := Function.update runs.queued i (some []) }
    := by
  obtain ⟨run, hrun, rfl⟩ := ListServer.ensure_eq_ok hensure
  obtain ⟨found, q, hfind, hqueue, hposts⟩ := ensure_runAll (hreal i) hrun
  have htail := Runs.steps_of_posts (t := t)
    (Function.update_self i (some q.entries) runs.queued) hposts
  rw [Function.update_idem] at htail
  exact .head (.find hwaiting hfind hqueue) htail

/-- One list of the object, and the values the queued requests add to it. -/
def Runs.onList (srv : ListServer cl name σ) (key : String)
    (runs : Runs ι σ) : Accumulate.Config ι (Set String) where
  store := (srv.view runs.server).lists key
  pending i := (runs.queued i).map (List.map (srv.added key))

/-- Every queued request only adds. -/
def Runs.OnlyAdd (srv : ListServer cl name σ) (key : String)
    (runs : Runs ι σ) : Prop :=
  ∀ i entries, runs.queued i = some entries →
    ∀ entry ∈ entries, srv.OnlyAdds key entry

theorem Runs.onList_queued (server : σ) (i : ι) (entries : List QueueEntry) :
    Runs.onList srv key
        { server, queued := Function.update runs.queued i (some entries) } =
      { store := (srv.view server).lists key
        pending := Function.update (runs.onList srv key).pending i
          (some (entries.map (srv.added key))) } := by
  unfold Runs.onList
  congr 1
  exact Function.comp_update (Option.map (List.map (srv.added key)))
    runs.queued i (some entries)

theorem Runs.OnlyAdd.queued (hadd : runs.OnlyAdd srv key) {i : ι}
    {entries : List QueueEntry} (server : σ)
    (hentries : ∀ entry ∈ entries, srv.OnlyAdds key entry) :
    Runs.OnlyAdd srv key
      { server, queued := Function.update runs.queued i (some entries) } := by
  intro j entries' hqueued
  dsimp only at hqueued
  by_cases hj : j = i
  · subst hj
    rw [Function.update_self] at hqueued
    exact Option.some.inj hqueued ▸ hentries
  · rw [Function.update_of_ne hj] at hqueued
    exact hadd j entries' hqueued

/-- A step of the runs is a step of runs that only add. -/
theorem Runs.Step.onList (hstate : ∀ i, (t i).state = .present)
    (hreal : ∀ i, (t i).checkMode = false)
    (hname : ∀ i, cl.modRequestParams (t i).ansibleModule = .ok name)
    (hstored : ∀ s, srv.stored key s = s) (hkey : cl.PlainList key)
    (hadd : runs.OnlyAdd srv key) (hstep : Runs.Step t srv runs runs') :
    runs'.OnlyAdd srv key ∧
      Accumulate.Step (fun i => (t i).wants.lists key)
        (runs.onList srv key) (runs'.onList srv key) := by
  cases hstep with
  | @find i found q hwaiting hfind hqueue =>
      obtain ⟨honly, hadded⟩ := srv.queue_present (hstate i) (hreal i)
        (hname i) hstored hkey hfind hqueue
      refine ⟨hadd.queued _ honly, ?_⟩
      rw [Runs.onList_queued]
      apply Accumulate.Step.look
      · simp [Runs.onList, hwaiting]
      · intro val hval
        by_cases hthere : val ∈ (srv.view runs.server).lists key
        · have hstart : (srv.view runs.server).lists key ⊆
              Accumulate.after _ (q.entries.map (srv.added key)) :=
            Accumulate.le_after _ _
          exact hstart hthere
        · obtain ⟨entry, hentry, hmem⟩ := (hadded val).mpr ⟨hval, hthere⟩
          have hsent : srv.added key entry ⊆
              Accumulate.after ((srv.view runs.server).lists key)
                (q.entries.map (srv.added key)) :=
            Accumulate.le_after_of_mem (List.mem_map_of_mem hentry)
          exact hsent hmem
      · intro vals hvals val hval
        obtain ⟨entry, hentry, rfl⟩ := List.mem_map.mp hvals
        exact ((hadded val).mp ⟨entry, hentry, hval⟩).1
  | @post i entry rest server hqueued hpost =>
      have honly := hadd i _ hqueued
      refine ⟨hadd.queued _ fun entry' hentry' =>
        honly entry' (List.mem_cons_of_mem entry hentry'), ?_⟩
      rw [Runs.onList_queued,
        srv.lists_post (honly entry List.mem_cons_self) hpost]
      apply Accumulate.Step.send
      simp [Runs.onList, hqueued]

theorem Runs.onList_run (hstate : ∀ i, (t i).state = .present)
    (hreal : ∀ i, (t i).checkMode = false)
    (hname : ∀ i, cl.modRequestParams (t i).ansibleModule = .ok name)
    (hstored : ∀ s, srv.stored key s = s) (hkey : cl.PlainList key)
    (hruns : Relation.ReflTransGen (Runs.Step t srv) (Runs.initial server)
      runs) :
    runs.OnlyAdd srv key ∧
      Relation.ReflTransGen
        (Accumulate.Step fun i => (t i).wants.lists key)
        (Accumulate.Config.initial ((srv.view server).lists key))
        (runs.onList srv key) := by
  induction hruns with
  | refl =>
      constructor
      · intro i entries hqueued
        contradiction
      · exact .refl
  | tail _ hstep ih =>
      obtain ⟨hadd, hsteps⟩ := ih
      obtain ⟨hadd', hstep'⟩ :=
        hstep.onList hstate hreal hname hstored hkey hadd
      exact ⟨hadd', hsteps.tail hstep'⟩

/-! ## No update is lost -/

/-- Once interleaved runs in state `present` have posted all their requests,
each list has its initial values and all that the runs want; runs one after
the other commute. -/
theorem no_lost_update (hcl : cl = .caacl ∨ cl = .group ∨ cl = .dnsrecord)
    (hstate : ∀ i, (t i).state = .present)
    (hreal : ∀ i, (t i).checkMode = false)
    (hname : ∀ i, cl.modRequestParams (t i).ansibleModule = .ok name)
    (hstored : ∀ key s, srv.stored key s = s) :
    (Relation.ReflTransGen (Runs.Step t srv) (Runs.initial server) runs →
      (∀ i, runs.queued i = some []) → ∀ key, cl.ListAttr key →
        (srv.view runs.server).lists key = (srv.view server).lists key ∪
          ⋃ i, (t i).wants.lists key) ∧
    ∀ order order' server₁ server₂, order.Perm order' →
      runAll (srv.ensure t) server order = .ok server₁ →
      runAll (srv.ensure t) server order' = .ok server₂ →
      ∀ key, cl.ListAttr key →
        (srv.view server₁).lists key = (srv.view server₂).lists key := by
  constructor
  · intro hruns hdone key hattr
    have hkey := plainList_of_listAttr hcl hattr
    obtain ⟨-, hsteps⟩ :=
      Runs.onList_run hstate hreal hname (hstored key) hkey hruns
    have hpending : ∀ i, (runs.onList srv key).pending i = some [] := by
      intro i
      simp [Runs.onList, hdone i]
    have hlub := Accumulate.isLUB_of_sent hsteps
      fun i => Or.inr (hpending i)
    have hlooked : {i | (runs.onList srv key).pending i ≠ none} =
        Set.univ := by
      ext i
      simp [hpending i]
    rw [hlooked, Set.image_univ] at hlub
    calc (srv.view runs.server).lists key
        = sSup (insert ((srv.view server).lists key)
            (Set.range fun i => (t i).wants.lists key)) := hlub.sSup_eq.symm
      _ = (srv.view server).lists key ∪
            ⋃ i, (t i).wants.lists key := by
          rw [sSup_insert, sSup_range]
          rfl
  · intro order order' server₁ server₂ hperm hrun hrun' key hattr
    have hkey := plainList_of_listAttr hcl hattr
    rw [srv.lists_runAll hstate hreal hname (hstored key) hkey hrun,
      srv.lists_runAll hstate hreal hname (hstored key) hkey hrun']
    simp only [hperm.mem_iff]

end Runs

/-- Two tasks that add a user each to one group. -/
def opsTasks (first : Bool) : TypedTask .group :=
  opsUsers (if first then ["alice"] else ["bob"])

/-- Both runs find the group before either adds its user. -/
theorem opsTasks_no_lost_update :
    ∃ runs, Relation.ReflTransGen
        (Runs.Step opsTasks (groupServer [.str "ops"]))
        (Runs.initial (opsMembers ["carol"])) runs ∧
      ((groupServer [.str "ops"]).view runs.server).lists "member_user" =
        {s | s ∈ ["carol"]} ∪ ⋃ i, (opsTasks i).wants.lists "member_user" := by
  have hruns : ∃ runs, Relation.ReflTransGen
        (Runs.Step opsTasks (groupServer [.str "ops"]))
        (Runs.initial (opsMembers ["carol"])) runs ∧
      ∀ i, runs.queued i = some [] := by
    refine ⟨_, .tail (.tail (.tail (.tail .refl
      (.find (i := true) rfl rfl rfl)) (.find (i := false) rfl rfl rfl))
      (.post (i := true) rfl rfl)) (.post (i := false) rfl rfl), ?_⟩
    intro i
    cases i <;> rfl
  obtain ⟨runs, hsteps, hdone⟩ := hruns
  have hlists := (@no_lost_update .group _ _ _ (groupServer [.str "ops"])
    _ opsTasks runs _ (Or.inr (Or.inl rfl)) (fun _ => rfl) (fun _ => rfl)
    (fun _ => rfl) (fun _ _ => rfl)).1 hsteps hdone "member_user"
    (Client.listAttr_of_type rfl)
  exact ⟨runs, hsteps, hlists⟩

end FreeipaProv
