import FreeipaProv.CheckMode
import FreeipaProv.ListServer

/-!
# The documented meaning of list options

The documentation of the user and group modules tells three cases of a list
option apart: a list replaces the values on the server, an empty list removes
all of them, and an option that is left out changes nothing.  In state
`present` a run only adds, so the first two hold where nothing is to be
removed; and in state `exact` an option that is left out counts as an empty
list.
-/

namespace FreeipaProv

open Fallible

/-- The options whose documentation describes the three cases. -/
def documentedLists : List (Client × String) :=
  [(.user, "mail"), (.user, "telephonenumber"),
   (.group, "member_user"), (.group, "member_group")]

/-- The task leaves the option out, or gives it no value. -/
def Task.Omits (t : Task) (key : String) : Prop :=
  t.given.lookup key = none ∨ t.given.lookup key = some .none

theorem documentedLists_spec : ∀ option ∈ documentedLists,
    option.1.PlainList option.2 ∧
      (option.1.cls.argumentSpec.lookup option.2).map
        (fun spec => spec.default.getD .none) = some .none ∧
      ∀ m, option.1.modRequestParams m =
        .ok (option.1.cls.modRequestParams m) := by
  intro option hoption
  simp only [documentedLists, List.mem_cons, List.not_mem_nil, or_false]
    at hoption
  rcases hoption with rfl | rfl | rfl | rfl <;>
    exact ⟨by decide +kernel, rfl, fun _ => rfl⟩

section Options

variable {cl : Client} {key : String} {t : TypedTask cl}

theorem wants_of_omitted
    (hspec : (cl.cls.argumentSpec.lookup key).map
      (fun spec => spec.default.getD .none) = some .none)
    (homits : t.Omits key) : t.wants.lists key = ∅ := by
  have hraw : t.ansibleModule.params.lookup key = some .none := by
    rw [TypedTask.ansibleModule, ClientClass.lookup_ansibleModule_params,
      hspec]
    rcases homits with hnone | hnone <;> rw [hnone] <;> rfl
  ext s
  simp [TypedTask.wants, hraw, Val.strings]

/-- A run leaves the values a documented option gives, and leaves the values
alone where the option is left out, exactly when nothing is to be removed in
state `present` and, with the option left out, in state `exact`. -/
theorem listOption_documented_iff (hoption : (cl, key) ∈ documentedLists)
    (hreal : t.checkMode = false)
    (hkept : ∀ desired, cl.mungeModuleParams t.ansibleModule = .ok desired →
      ¬cl.Removes t.state desired)
    {σ : Type}
    (srv : ListServer cl (cl.cls.modRequestParams t.ansibleModule) σ)
    (hstored : ∀ s, srv.stored key s = s) {server : σ} {run : Val × Bool × σ}
    (hensure : cl.ensure t.ansibleModule (srv.find server) srv.post server =
      .ok run) :
    ((∀ ss : List String, t.given.lookup key = some (.list (ss.map .str)) →
        t.state = .present → (srv.view run.2.2).lists key = {s | s ∈ ss}) ∧
      (t.Omits key →
        (srv.view run.2.2).lists key = (srv.view server).lists key ∧
        ∀ found, cl.find t.ansibleModule (srv.find server) = .ok found →
          found.diffs.listAdd.lookup key = none ∧
            found.diffs.listDel.lookup key = none)) ↔
    (∀ ss : List String, t.given.lookup key = some (.list (ss.map .str)) →
      t.state = .present → (srv.view server).lists key ⊆ {s | s ∈ ss}) ∧
    (t.Omits key → t.state = .exact → (srv.view server).lists key = ∅) := by
  obtain ⟨hkey, hspec, hparams⟩ := documentedLists_spec (cl, key) hoption
  dsimp only at hkey hspec hparams
  obtain ⟨found, q, hfind, hqueue, hrun⟩ := ensure_runAll hreal hensure
  obtain ⟨item, steps⟩ := Client.find_steps hfind
  have hends : cl.remEnds t.ansibleModule found = false := by
    rw [← Bool.not_eq_true, remEnds_iff]
    exact hkept _ steps.desired
  have hlists := srv.lists_run hreal (hparams _) hstored hkey steps hends
    hqueue hrun
  have hdiff := steps.mem_diff_side hkey.1
    (srv.members_current (hparams _) steps hkey)
  have hcert : ¬(cl = .cert ∧ t.ansibleModule.state = .absent) :=
    fun hcert => hkey.1.ne_cert hcert.1
  refine and_congr ?_ ?_
  · refine forall₂_congr fun ss hgiven => forall_congr' fun hstate => ?_
    have hwants := TypedTask.wants_of_given hkey.1 hgiven
    rw [hlists, TypedTask.listGoal, hstate, hwants]
    exact Set.union_eq_right
  · refine forall_congr' fun homits => ?_
    have hwants := wants_of_omitted hspec homits
    have hadd : found.diffs.listAdd.lookup key = none := by
      refine (steps.side_eq_none_iff hcert .add key).mpr fun a => ?_
      rw [Changes.side, (hdiff a).1, hwants]
      simp
    have hdel : found.diffs.listDel.lookup key = none ↔
        (t.state = .exact → (srv.view server).lists key = ∅) := by
      refine (steps.side_eq_none_iff hcert .del key).trans ?_
      simp only [Changes.side, (hdiff _).2, hwants, Set.mem_empty_iff_false,
        not_false_eq_true, and_true, and_false, or_false]
      constructor
      · intro hnone hstate
        apply Set.eq_empty_of_forall_notMem
        intro s hs
        exact hnone (.str s) ⟨s, rfl, hs, hstate⟩
      · rintro hempty a ⟨s, -, hs, hstate⟩
        rw [hempty hstate] at hs
        exact hs
    constructor
    · rintro ⟨-, hdiff⟩
      exact hdel.mp (hdiff found hfind).2
    · intro hempty
      refine ⟨?_, fun found' hfind' => ?_⟩
      · rw [hlists, TypedTask.listGoal, hwants]
        cases hstate : t.state with
        | exact => exact (hempty hstate).symm
        | absent => exact Set.sdiff_empty
        | present | enabled | disabled => exact Set.union_empty _
      · obtain rfl := Except.ok.inj (hfind.symm.trans hfind')
        exact ⟨hadd, hdel.mpr hempty⟩

end Options

/-- The server of the task. -/
def opsServer (users : List String) : ListServer .group
    (groupClass.modRequestParams (opsUsers users).ansibleModule)
    ListValues :=
  groupServer _

/-- An empty list of users leaves a user in the group. -/
theorem opsUsers_kept :
    ¬∀ (t : TypedTask .group) (σ : Type)
      (srv : ListServer .group
        (groupClass.modRequestParams t.ansibleModule) σ) (server : σ)
      (run : Val × Bool × σ) (ss : List String),
      t.state = .present → t.checkMode = false →
      (∀ s, srv.stored "member_user" s = s) →
      t.given.lookup "member_user" = some (.list (ss.map .str)) →
      Client.group.ensure t.ansibleModule (srv.find server) srv.post server =
        .ok run →
      (srv.view run.2.2).lists "member_user" = {s | s ∈ ss} := by
  intro hdocumented
  have hrun : ∃ run, Client.group.ensure (opsUsers []).ansibleModule
        ((opsServer []).find (opsMembers ["alice"])) (opsServer []).post
        (opsMembers ["alice"]) = .ok run ∧
      run.2.2 "member_user" = ["alice"] :=
    ⟨_, rfl, rfl⟩
  obtain ⟨run, hensure, hmembers⟩ := hrun
  have hlists := hdocumented (opsUsers []) _ (opsServer [])
    (opsMembers ["alice"]) run [] rfl rfl (fun _ => rfl) rfl hensure
  have halice : "alice" ∈ ((opsServer []).view run.2.2).lists "member_user" := by
    change "alice" ∈ run.2.2 "member_user"
    rw [hmembers]
    exact List.mem_singleton_self _
  rw [hlists] at halice
  exact List.not_mem_nil halice

theorem opsUsers_documented_iff :
    ∃ run, Client.group.ensure (opsUsers ["alice", "bob"]).ansibleModule
        ((opsServer ["alice", "bob"]).find (opsMembers ["alice"]))
        (opsServer ["alice", "bob"]).post (opsMembers ["alice"]) = .ok run ∧
      ((opsServer ["alice", "bob"]).view run.2.2).lists "member_user" =
        {s | s ∈ ["alice", "bob"]} := by
  have hrun : ∃ run, Client.group.ensure
      (opsUsers ["alice", "bob"]).ansibleModule
      ((opsServer ["alice", "bob"]).find (opsMembers ["alice"]))
      (opsServer ["alice", "bob"]).post (opsMembers ["alice"]) = .ok run :=
    ⟨_, rfl⟩
  obtain ⟨run, hensure⟩ := hrun
  have hgiven : (opsUsers ["alice", "bob"]).given.lookup "member_user" =
      some (.list (["alice", "bob"].map .str)) := rfl
  refine ⟨run, hensure, ((listOption_documented_iff
    (t := opsUsers ["alice", "bob"]) (by decide) rfl ?_
    (opsServer ["alice", "bob"]) (fun _ => rfl) hensure).mpr
    ⟨?_, ?_⟩).1 _ hgiven rfl⟩
  · rintro desired - ⟨hstate, -⟩
    contradiction
  · intro ss hss _ s hs
    obtain rfl : ["alice", "bob"] = ss := by
      have hlist := congrArg (Option.map Val.strings) (hgiven.symm.trans hss)
      rw [Option.map_some, Option.map_some, strings_list, strings_list]
        at hlist
      exact Option.some.inj hlist
    have halice : s ∈ ["alice"] := hs
    simp at halice
    simp [halice]
  · rintro - hstate
    contradiction

end FreeipaProv
