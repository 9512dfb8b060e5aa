import FreeipaProv.QueueEncodes
import FreeipaProv.Removal

/-!
# Check mode

In check mode `process_queue` reports a change for each queued request
without posting it.  `rem`, the enable or disable request and two kinds of
handlers queue nothing in check mode, and do not report a change either.  So
the two modes agree unless such a step is the only one with something to do.
-/

namespace FreeipaProv

open Fallible

/-- The task run in check mode or outside it. -/
def AnsibleModule.inMode (m : AnsibleModule) (checkMode : Bool) :
    AnsibleModule :=
  { m with checkMode }

section Modes

variable {cl : Client} {m : AnsibleModule} {reply : FindReply} {found : Found}
  {obj : Dict String Val}

theorem find_inMode (cl : Client) (m : AnsibleModule) (checkMode : Bool)
    (reply : FindReply) :
    cl.find (m.inMode checkMode) reply = cl.find m reply := by
  cases cl <;> rfl

theorem baseEntries_inMode (cl : Client) (m : AnsibleModule)
    (checkMode : Bool) (found : Found) :
    cl.baseEntries (m.inMode checkMode) found = cl.baseEntries m found := by
  cases cl <;> rfl

/-- What a run outside check mode reports. -/
theorem ensure_changed_real {σ : Type} {post : Post σ} {server : σ}
    {run : Val × Bool × σ} (hfind : cl.find m reply = .ok found)
    (hensure : cl.ensure (m.inMode false) reply post server = .ok run) :
    if cl.remEnds m found then run.2.1 = !found.isAbsent
    else ∃ base, cl.baseEntries m found = .ok base ∧
      (run.2.1 = true ↔ cl.queuesBase found = true ∨
        cl.flagEntries m found ≠ [] ∨ cl.routeEntries m found ≠ []) := by
  obtain ⟨found', hfind', hensure⟩ := bind_eq_ok_iff.mp hensure
  rw [find_inMode, hfind] at hfind'
  obtain rfl := Except.ok.inj hfind'
  obtain ⟨q, hqueue, hensure⟩ := bind_eq_ok_iff.mp hensure
  rw [processQueue_changed hensure]
  split
  · rename_i hends
    rw [queueRequests_of_remEnds (m := m.inMode false) hends,
      Client.remQueue] at hqueue
    cases habsent : found.isAbsent with
    | true =>
        simp only [habsent, Bool.true_or, if_true, Except.ok.injEq] at hqueue
        simp [← hqueue, Queue.initial]
    | false =>
        simp only [habsent, AnsibleModule.inMode, Bool.or_self,
          Bool.false_eq_true, if_false] at hqueue
        obtain ⟨name, -, hqueue⟩ := bind_eq_ok_iff.mp hqueue
        obtain ⟨item, -, hqueue⟩ := bind_eq_ok_iff.mp hqueue
        simp [← Except.ok.inj hqueue, Queue.push, Queue.initial]
  · rename_i hends
    rw [Bool.not_eq_true] at hends
    obtain ⟨base, hbase, hentries, hmarks⟩ :=
      queue_parts (m := m.inMode false) rfl hends hqueue
    rw [baseEntries_inMode] at hbase
    refine ⟨base, hbase, ?_⟩
    have hroutes : cl.marksChanged found = true →
        cl.routeEntries m found ≠ [] := routeEntries_ne_nil_of_marksChanged
    rw [hmarks, hentries, ← baseEntries_ne_nil_iff hbase]
    simp only [Bool.or_eq_true, Bool.not_eq_true', List.isEmpty_eq_false_iff,
      ne_eq, List.append_eq_nil_iff]
    change _ ∨ ¬(_ ∧ cl.flagEntries m found = [] ∧ cl.routeEntries m found = [])
      ↔ _
    tauto

theorem ensure_changed_check {σ : Type} (post : Post σ) (server : σ)
    (hfind : cl.find m reply = .ok found) :
    if cl.remEnds m found then
      ∃ run, cl.ensure (m.inMode true) reply post server = .ok run ∧
        run.2.1 = false
    else ∀ base, cl.baseEntries m found = .ok base →
      ∃ run, cl.ensure (m.inMode true) reply post server = .ok run ∧
        (run.2.1 = true ↔ cl.queuesBase found = true ∨
          cl.marksChanged found = true) := by
  have hensure : ∀ q, cl.queueRequests (m.inMode true) found = .ok q →
      ∃ run, cl.ensure (m.inMode true) reply post server = .ok run ∧
        run.2.1 = (q.changed || !q.entries.isEmpty) := by
    intro q hqueue
    obtain ⟨response, hrun⟩ := processQueue_checkMode (m := m.inMode true) rfl
      post q.entries (.dict found.response.items, q.changed, server)
    refine ⟨(response, q.changed || !q.entries.isEmpty, server), ?_, rfl⟩
    simp only [Client.ensure, find_inMode, hfind, hqueue, ok_bind]
    exact hrun
  split
  · rename_i hends
    refine hensure Queue.initial ?_
    rw [queueRequests_of_remEnds (m := m.inMode true) hends, Client.remQueue,
      if_pos (by simp [AnsibleModule.inMode])]
  · rename_i hends
    rw [Bool.not_eq_true] at hends
    intro base hbase
    obtain ⟨run, hrun, hchanged⟩ := hensure ⟨base, cl.marksChanged found⟩ (by
      rw [queueRequests_of_not_remEnds (m := m.inMode true) hends,
        baseEntries_inMode, hbase]
      simp [Except.map, AnsibleModule.inMode])
    refine ⟨run, hrun, ?_⟩
    rw [hchanged, ← baseEntries_ne_nil_iff hbase]
    simp [or_comm]

end Modes

/-! ## Attributes that differ -/

namespace ClientClass

variable (cls : ClientClass)

/-- A scalar attribute enters the diff. -/
def ScalarDiffers (state : State) (desired current : Dict String Val)
    (key : String) : Prop :=
  if state = .absent then
    ∃ val, cls.scalar desired key = some val ∧
      val.pyEq ((cls.scalar current key).getD .none) = true
  else
    (∃ new, cls.scalar desired key = some new ∧
      ∀ old, cls.scalar current key = some old → new.pyEq old = false) ∨
    (state = .exact ∧ cls.scalar desired key = none ∧
      (∃ old, cls.scalar current key = some old) ∧
      (cls.argumentSpec.lookup key).bind ArgSpec.default = none)

/-- An attribute has something to add, to remove or to set. -/
def Differs (state : State) (desired current : Dict String Val)
    (key : String) : Prop :=
  listAddValues state (cls.members desired key) (cls.members current key) ≠ [] ∨
    listDelValues state (cls.members desired key) (cls.members current key) ≠ [] ∨
    cls.ScalarDiffers state desired current key

variable {cls}

theorem scalarDiffers_iff {state : State} {desired current : Dict String Val}
    {changes : Changes}
    (hok : cls.computeChanges state desired current = .ok changes)
    (key : String) :
    cls.ScalarDiffers state desired current key ↔
      changes.scalars.lookup key ≠ none := by
  unfold ScalarDiffers
  split
  · rename_i hstate
    subst hstate
    rw [lookup_scalars_absent hok]
    cases cls.scalar desired key with
    | none => simp
    | some val =>
        simp only [Option.some.injEq, exists_eq_left', Option.bind_some]
        split <;> simp_all
  · rename_i hstate
    rw [lookup_scalars hstate hok]
    cases cls.scalar desired key with
    | some new =>
        cases cls.scalar current key with
        | some old => cases heq : new.pyEq old <;> simp [heq]
        | none => simp
    | none =>
        cases cls.scalar current key with
        | some old => simp
        | none => simp

theorem differs_iff {state : State} {desired current : Dict String Val}
    {changes : Changes}
    (hok : cls.computeChanges state desired current = .ok changes)
    (key : String) :
    cls.Differs state desired current key ↔
      (∃ side, (changes.side side).lookup key ≠ none) ∨
        changes.scalars.lookup key ≠ none := by
  rw [Differs, scalarDiffers_iff hok, ← or_assoc]
  refine or_congr_left ?_
  have hadd := lookup_listAdd hok key
  have hdel := lookup_listDel hok key
  constructor
  · rintro (hne | hne)
    · refine ⟨.add, ?_⟩
      rw [Changes.side, hadd, ne_eq, nonempty_eq_none_iff]
      exact hne
    · refine ⟨.del, ?_⟩
      rw [Changes.side, hdel, ne_eq, nonempty_eq_none_iff]
      exact hne
  · rintro ⟨side, hne⟩
    cases side with
    | add =>
        rw [Changes.side, hadd, ne_eq, nonempty_eq_none_iff] at hne
        exact Or.inl hne
    | del =>
        rw [Changes.side, hdel, ne_eq, nonempty_eq_none_iff] at hne
        exact Or.inr hne

end ClientClass

/-! ## What check mode hides -/

/-- The attributes of the dedicated methods whose handler marks the object
changed in check mode too, or does not. -/
def Client.handledKeys (cl : Client) (marks : Bool) : List String :=
  (cl.routes.filter fun entry => entry.1 = marks).flatMap fun entry =>
    entry.2.args.map Prod.snd

/-- The handlers treat both sides of the diff alike. -/
theorem handledKeys_spec (cl : Client) (marks : Bool) (side : Side) :
    ∀ key ∈ cl.handledKeys marks, cl.cls.paramType key = some .list ∧
      ∃ entry ∈ cl.routes, entry.1 = marks ∧ entry.2.side = side ∧
        ∃ arg ∈ entry.2.args, arg.2 = key := by
  cases cl <;> cases marks <;> cases side <;> decide +kernel

/-- The run is one of `rem`. -/
def Client.Removes (cl : Client) (state : State) (desired : Dict String Val) :
    Prop :=
  state = .absent ∧ (cl = .cert ∨ desired.isEmpty = true)

/-- Check mode would report the attribute's change. -/
def Client.Announced (cl : Client) (key : String) : Prop :=
  key ∈ cl.cls.baseKeys ∨ key ∈ cl.handledKeys true

/-- A run outside check mode acts on the attribute, check mode is silent
about it. -/
def Client.Silent (cl : Client) (state : State) (current : Dict String Val)
    (key : String) : Prop :=
  key ∈ cl.handledKeys false ∨
    (cl.cls.enablekey = some key ∧ (state = .enabled ∨ state = .disabled) ∧
      current.isEmpty = false)

/-- Check mode hides the deletion of an object, and a change of silent
attributes when nothing else is to be done. -/
def Client.Hides (cl : Client) (state : State) (reply : FindReply)
    (desired current : Dict String Val) : Prop :=
  (cl.Removes state desired ∧ current.isEmpty = false) ∨
    (¬cl.Removes state desired ∧ reply.result ≠ [] ∧
      (∃ key, cl.Silent state current key ∧
        cl.cls.Differs state desired current key) ∧
      ¬∃ key, cl.Announced key ∧ cl.cls.Differs state desired current key)

section Hides

variable {cl : Client} {m : AnsibleModule} {reply : FindReply} {found : Found}
  {obj : Dict String Val}

theorem remEnds_iff (cl : Client) (m : AnsibleModule) (found : Found) :
    cl.remEnds m found = true ↔ cl.Removes m.state found.canonParams := by
  rw [Client.Removes, Client.remEnds, Client.isRemParamRequest.eq_def]
  cases cl <;> simp

theorem FindSteps.queuesBase_iff (steps : FindSteps cl m reply found obj)
    (hends : ¬(cl = .cert ∧ m.state = .absent)) :
    cl.queuesBase found = true ↔ reply.result = [] ∨
      ∃ key ∈ cl.cls.baseKeys,
        cl.cls.Differs m.state found.canonParams found.responseCleaned key := by
  have hdiffs := Client.computeChanges_eq steps.diffs hends
  rw [Client.queuesBase, steps.objectExists, Bool.not_eq_true',
    Bool.and_eq_false_iff, FindReply.objectExists_eq_false_iff, or_comm,
    ← Bool.not_eq_true, baseItem_isEmpty_iff]
  refine or_congr_right ?_
  simp only [not_forall, exists_prop]
  refine exists_congr fun key => and_congr_right fun _ => ?_
  rw [ClientClass.differs_iff hdiffs]
  constructor
  · intro hdiff
    by_contra hnone
    simp only [not_or, not_exists, ne_eq, not_not] at hnone
    exact hdiff ⟨hnone.1 .add, hnone.1 .del, hnone.2⟩
  · rintro (⟨side, hside⟩ | hscalar) ⟨hadd, hdel, hnone⟩
    · cases side with
      | add => exact hside hadd
      | del => exact hside hdel
    · exact hscalar hnone

/-- A handler has something to do when one of its attributes differs. -/
theorem FindSteps.handler_hasChanges_iff
    (steps : FindSteps cl m reply found obj)
    (hends : ¬(cl = .cert ∧ m.state = .absent)) (marks : Bool) :
    (∃ entry ∈ cl.routes, entry.1 = marks ∧
      entry.2.hasChanges found.diffs = true) ↔
    ∃ key ∈ cl.handledKeys marks,
      cl.cls.Differs m.state found.canonParams found.responseCleaned key := by
  have hdiffs := Client.computeChanges_eq steps.diffs hends
  constructor
  · rintro ⟨entry, hentry, rfl, hchanges⟩
    obtain ⟨arg, harg, vals, hvals⟩ := Route.hasChanges_iff.mp hchanges
    refine ⟨arg.2, List.mem_flatMap.mpr ⟨entry, List.mem_filter.mpr
      ⟨hentry, by simp⟩, List.mem_map_of_mem harg⟩, ?_⟩
    rw [ClientClass.differs_iff hdiffs]
    exact Or.inl ⟨entry.2.side, by simp [hvals]⟩
  · rintro ⟨key, hkey, hdiffers⟩
    rw [ClientClass.differs_iff hdiffs] at hdiffers
    have hspec := handledKeys_spec cl marks
    rcases hdiffers with ⟨side, hside⟩ | hscalar
    · obtain ⟨-, entry, hentry, hmarks, rfl, arg, harg, rfl⟩ :=
        hspec side key hkey
      obtain ⟨vals, hvals⟩ := Option.ne_none_iff_exists'.mp hside
      exact ⟨entry, hentry, hmarks,
        Route.hasChanges_iff.mpr ⟨arg, harg, vals, hvals⟩⟩
    · refine absurd ?_ hscalar
      exact ClientClass.diff_scalar_key hdiffs (hspec .add key hkey).1

theorem marksChanged_iff (cl : Client) (found : Found) :
    cl.marksChanged found = true ↔ ∃ entry ∈ cl.routes, entry.1 = true ∧
      entry.2.hasChanges found.diffs = true := by
  simp [Client.marksChanged]

theorem routeEntries_ne_nil_iff (cl : Client) (m : AnsibleModule)
    (found : Found) :
    cl.routeEntries m found ≠ [] ↔ ∃ marks, ∃ entry ∈ cl.routes,
      entry.1 = marks ∧ entry.2.hasChanges found.diffs = true := by
  constructor
  · intro hne
    obtain ⟨entry, hentry⟩ := List.exists_mem_of_ne_nil _ hne
    obtain ⟨marks, route, hroute, hchanges, -⟩ :=
      Client.mem_routeEntries.mp hentry
    exact ⟨marks, (marks, route), hroute, rfl, hchanges⟩
  · rintro ⟨-, ⟨marks, route⟩, hroute, rfl, hchanges⟩
    exact List.ne_nil_of_mem (Client.mem_routeEntries.mpr
      ⟨marks, route, hroute, hchanges, rfl⟩)

theorem enablekey_type (cl : Client) : ∀ key ∈ cl.cls.enablekey,
    cl.cls.paramType key ≠ some .list := by
  cases cl <;> decide

theorem FindSteps.flagEntries_ne_nil_iff
    (steps : FindSteps cl m reply found obj)
    (hends : ¬(cl = .cert ∧ m.state = .absent)) :
    cl.flagEntries m found ≠ [] ↔ ∃ key,
      (cl.cls.enablekey = some key ∧
        (m.state = .enabled ∨ m.state = .disabled) ∧
        found.responseCleaned.isEmpty = false) ∧
      cl.cls.Differs m.state found.canonParams found.responseCleaned key := by
  have hdiffs := Client.computeChanges_eq steps.diffs hends
  have hdiffers : ∀ key, cl.cls.enablekey = some key →
      (cl.cls.Differs m.state found.canonParams found.responseCleaned key ↔
        found.diffs.scalars.lookup key ≠ none) := by
    intro key hkey
    rw [ClientClass.differs_iff hdiffs]
    refine or_iff_right ?_
    rintro ⟨side, hside⟩
    exact hside (ClientClass.diff_list_key hdiffs
      (enablekey_type cl key hkey) side)
  have hentries : cl.flagEntries m found ≠ [] ↔
      cl.flagChange m found ≠ none := by
    unfold Client.flagEntries
    cases cl.flagChange m found <;> simp
  rw [hentries, Client.flagChange, Found.isAbsent]
  cases hempty : found.responseCleaned.isEmpty with
  | true => simp
  | false =>
      by_cases hstate : m.state = .enabled ∨ m.state = .disabled
      · cases hkey : cl.cls.enablekey with
        | none => simp
        | some key =>
            have hguard : (!(decide (m.state = .enabled) ||
                decide (m.state = .disabled))) = false := by
              rcases hstate with hstate | hstate <;> simp [hstate]
            simp [hguard, hstate, hdiffers key hkey]
      · simp [hstate]
        tauto

/-- A run that something else announces hides nothing. -/
private theorem disagree_iff (missing base marked flag silent : Prop) :
    (((missing ∨ base) ∨ marked) ↔
      ((missing ∨ base) ∨ flag ∨ marked ∨ silent)) ↔
    ¬(¬missing ∧ (silent ∨ flag) ∧ ¬(base ∨ marked)) := by
  tauto

/-- The two modes report the same, for a run that posts its requests
successfully, exactly when check mode hides nothing. -/
theorem checkMode_agrees_iff {σ : Type} {post : Post σ} {server : σ}
    {run : Val × Bool × σ} {desired current : Dict String Val}
    (hdesired : cl.mungeModuleParams m = .ok desired)
    (hobj : cl.findResult m reply = .ok obj)
    (hcurrent : cl.mungeResponse m obj = .ok current)
    (hensure : cl.ensure (m.inMode false) reply post server = .ok run) :
    ∃ dry, cl.ensure (m.inMode true) reply post server = .ok dry ∧
      (dry.2.1 = run.2.1 ↔ ¬cl.Hides m.state reply desired current) := by
  obtain ⟨found, hfind, -⟩ := bind_eq_ok_iff.mp hensure
  rw [find_inMode] at hfind
  obtain ⟨obj', steps⟩ := Client.find_steps hfind
  obtain rfl := Except.ok.inj (hobj.symm.trans steps.selected)
  obtain rfl := Except.ok.inj (hdesired.symm.trans steps.desired)
  obtain rfl := Except.ok.inj (hcurrent.symm.trans steps.current)
  have hreal := ensure_changed_real hfind hensure
  have hcheck := ensure_changed_check (m := m) post server hfind
  by_cases hends : cl.remEnds m found = true
  · rw [if_pos hends] at hreal hcheck
    obtain ⟨dry, hdry, hchanged⟩ := hcheck
    refine ⟨dry, hdry, ?_⟩
    have hremoves := (remEnds_iff cl m found).mp hends
    rw [hchanged, hreal, Client.Hides, Found.isAbsent]
    cases found.responseCleaned.isEmpty <;> simp [hremoves]
  · rw [if_neg hends] at hreal hcheck
    obtain ⟨base, hbase, hreal⟩ := hreal
    obtain ⟨dry, hdry, hcheck⟩ := hcheck base hbase
    refine ⟨dry, hdry, ?_⟩
    have hremoves : ¬cl.Removes m.state found.canonParams := by
      rw [← remEnds_iff]
      exact hends
    have hcert := not_cert_absent_of_not_remEnds (Bool.not_eq_true _ ▸ hends)
    have hannounced : (∃ key, cl.Announced key ∧ cl.cls.Differs m.state
        found.canonParams found.responseCleaned key) ↔
        (∃ key ∈ cl.cls.baseKeys, cl.cls.Differs m.state found.canonParams
          found.responseCleaned key) ∨ cl.marksChanged found = true := by
      rw [marksChanged_iff, steps.handler_hasChanges_iff hcert]
      simp only [Client.Announced, or_and_right, exists_or]
    have hsilent : (∃ key, cl.Silent m.state found.responseCleaned key ∧
        cl.cls.Differs m.state found.canonParams found.responseCleaned key) ↔
        (∃ entry ∈ cl.routes, entry.1 = false ∧
          entry.2.hasChanges found.diffs = true) ∨
        cl.flagEntries m found ≠ [] := by
      rw [steps.flagEntries_ne_nil_iff hcert,
        steps.handler_hasChanges_iff hcert]
      simp only [Client.Silent, or_and_right, exists_or]
    have hroutes : cl.routeEntries m found ≠ [] ↔
        cl.marksChanged found = true ∨ ∃ entry ∈ cl.routes,
          entry.1 = false ∧ entry.2.hasChanges found.diffs = true := by
      rw [routeEntries_ne_nil_iff, marksChanged_iff]
      simp only [Bool.exists_bool, or_comm]
    rw [Bool.eq_iff_iff, hcheck, hreal, hroutes, Client.Hides, hsilent,
      hannounced, steps.queuesBase_iff hcert]
    simp only [hremoves, false_and, false_or, not_false_eq_true, true_and,
      ne_eq]
    exact disagree_iff _ _ _ _ _

end Hides

/-- A server on which every request succeeds. -/
def acceptingPost : Post Unit := fun server _ => .ok (.dict [], server)

/-- The removal of a group is not predicted. -/
theorem sysopsAbsent_not_predicted :
    ¬∀ (cl : Client) (m : AnsibleModule) (reply : FindReply) (σ : Type)
      (post : Post σ) (server : σ) (dry run : Val × Bool × σ),
      cl.ensure (m.inMode true) reply post server = .ok dry →
      cl.ensure (m.inMode false) reply post server = .ok run →
      dry.2.1 = run.2.1 := by
  intro hagree
  have hruns : ∃ dry run,
      Client.group.ensure
        ((groupClass.ansibleModule sysopsAbsent).inMode true) sysopsReply
        acceptingPost () = .ok dry ∧
      Client.group.ensure
        ((groupClass.ansibleModule sysopsAbsent).inMode false) sysopsReply
        acceptingPost () = .ok run ∧
      dry.2.1 = false ∧ run.2.1 = true := ⟨_, _, rfl, rfl, rfl, rfl⟩
  obtain ⟨dry, run, hdry, hrun, hfalse, htrue⟩ := hruns
  have hsame := hagree _ _ _ _ _ _ dry run hdry hrun
  simp [hfalse, htrue] at hsame

theorem sysopsAbsent_agrees_iff :
    ∃ desired current run dry,
      Client.group.ensure
        ((groupClass.ansibleModule sysopsAbsent).inMode false) sysopsReply
        acceptingPost () = .ok run ∧
      Client.group.ensure
        ((groupClass.ansibleModule sysopsAbsent).inMode true) sysopsReply
        acceptingPost () = .ok dry ∧
      (dry.2.1 = run.2.1 ↔
        ¬Client.group.Hides .absent sysopsReply desired current) := by
  have hrun : ∃ run, Client.group.ensure
      ((groupClass.ansibleModule sysopsAbsent).inMode false) sysopsReply
      acceptingPost () = .ok run := ⟨_, rfl⟩
  obtain ⟨run, hrun⟩ := hrun
  obtain ⟨dry, hdry, hagree⟩ := checkMode_agrees_iff rfl rfl rfl hrun
  exact ⟨_, _, run, dry, hrun, hdry, hagree⟩

end FreeipaProv
