import FreeipaProv.DiffAlgebra
import FreeipaProv.Revocation

/-!
# The parameters a find looks up

`compute_changes` reads the declaration of every scalar it puts into a diff.
The keys of the task are declared, and outside state `exact` no others are
read.  In state `exact` those of the object are read as well; they are
declared for every client that cleans its reply.
-/

namespace FreeipaProv

open Fallible

/-! ## The keys of the two items -/

theorem Client.mem_argumentSpec_of_overrides {cl : Client} {state : State}
    {key : String} (hkey : cl.Overrides state key) :
    key ∈ cl.cls.argumentSpec.keys := by
  have hflags : ∀ key ∈ cl.cls.enablekey, key ∈ cl.cls.argumentSpec.keys := by
    cases cl <;> decide +kernel
  rcases hkey with ⟨hflag, -⟩ | ⟨rfl, rfl⟩
  · exact hflags key hflag
  · decide +kernel

theorem Client.mem_argumentSpec_of_desired {cl : Client} {m : AnsibleModule}
    {desired : Dict String Val} (hok : cl.mungeModuleParams m = .ok desired)
    {key : String} (hkey : desired.lookup key ≠ none) :
    key ∈ cl.cls.argumentSpec.keys := by
  by_cases hoverrides : cl.Overrides m.state key
  · exact Client.mem_argumentSpec_of_overrides hoverrides
  · rw [Client.lookup_mungeModuleParams hok hoverrides] at hkey
    exact ClientClass.mem_argumentSpec_of_cleanedAt hkey

theorem Client.mem_argumentSpec_of_current {cl : Client} (hcert : cl ≠ .cert)
    {m : AnsibleModule} {obj current : Dict String Val}
    (hok : cl.mungeResponse m obj = .ok current) {key : String}
    (hkey : current.lookup key ≠ none) : key ∈ cl.cls.argumentSpec.keys := by
  obtain ⟨val, hval⟩ := Option.ne_none_iff_exists'.mp hkey
  have hattr := Client.isAttr_of_lookup_mungeResponse hcert hok hval
  obtain ⟨type, htype⟩ := Option.ne_none_iff_exists'.mp hattr.1
  exact ClientClass.mem_argumentSpec_of_type htype

/-- Outside state `exact` only keys of the desired item are read. -/
theorem ClientClass.indexedKeys_desired {cls : ClientClass} {state : State}
    {change curr : Dict String Val} (hstate : state ≠ .exact) {key : String}
    (hkey : key ∈ cls.indexedKeys state change curr) :
    change.lookup key ≠ none := by
  intro hnone
  have hscalar : cls.scalar change key = none := scalar_eq_none hnone
  unfold indexedKeys at hkey
  split_ifs at hkey
  · rcases mem_scalarKeys.mp hkey with ⟨new, hnew, -⟩ | ⟨hexact, -⟩
    · rw [hscalar] at hnew
      contradiction
    · exact hstate hexact
  · obtain ⟨val, hval⟩ := mem_keys_scalarSlice.mp (List.mem_filter.mp hkey).1
    rw [hscalar] at hval
    contradiction

/-- In state `exact` a key the object has and the task does not is read,
unless it has a default. -/
theorem ClientClass.mem_indexedKeys_exact {cls : ClientClass}
    {change curr : Dict String Val} {key : String}
    (htype : cls.paramType key ≠ some .list)
    (hchange : change.lookup key = none) (hcurr : curr.lookup key ≠ none)
    (hdefault : (cls.argumentSpec.lookup key).bind ArgSpec.default = none) :
    key ∈ cls.indexedKeys .exact change curr := by
  rw [indexedKeys, if_pos (by simp), mem_scalarKeys]
  refine Or.inr ⟨rfl, scalar_eq_none hchange, ?_, hdefault⟩
  rw [scalar_of_lookup htype, ← Option.ne_none_iff_exists']
  exact hcurr

section Reads

variable {cl : Client} {m : AnsibleModule} {reply : FindReply}
  {desired obj current : Dict String Val}

/-- The diff of a client reads declared parameters only, except for that of a
certificate with other attributes in state `exact`. -/
theorem Client.indexedKeys_declared_iff
    (hdesired : cl.mungeModuleParams m = .ok desired)
    (hcurrent : cl.mungeResponse m obj = .ok current) :
    (∀ key ∈ cl.cls.indexedKeys m.state desired current,
      key ∈ cl.cls.argumentSpec.keys) ↔
    ¬(cl = .cert ∧ m.state = .exact ∧
      ∃ key ∈ obj.keys, key ∉ cl.cls.argumentSpec.keys) := by
  have hprincipal : "principal" ∈ certClass.argumentSpec.keys := by
    decide +kernel
  constructor
  · rintro hkeys ⟨rfl, hstate, key, hkey, hundeclared⟩
    apply hundeclared
    apply hkeys
    have hunknown : certClass.argumentSpec.lookup key = none := by
      by_contra hspec
      exact hundeclared (Dict.fst_mem_keys.mpr
        (Option.ne_none_iff_exists'.mp hspec))
    have hne : key ≠ "principal" := by
      rintro rfl
      exact hundeclared hprincipal
    rw [hstate]
    apply ClientClass.mem_indexedKeys_exact
    · intro htype
      exact hundeclared (ClientClass.mem_argumentSpec_of_type htype)
    · by_contra hval
      exact hundeclared (Client.mem_argumentSpec_of_desired hdesired hval)
    · rw [certMungeResponse_lookup hcurrent hne, Option.ne_none_iff_exists']
      exact Dict.fst_mem_keys.mp hkey
    · change (certClass.argumentSpec.lookup key).bind ArgSpec.default = none
      rw [hunknown]
      rfl
  · intro hdeclared key hkey
    rcases ClientClass.indexedKeys_subset hkey with hval | hval
    · exact Client.mem_argumentSpec_of_desired hdesired hval
    by_cases hcert : cl = .cert
    · subst hcert
      by_cases hstate : m.state = .exact
      · by_cases hne : key = "principal"
        · rw [hne]
          exact hprincipal
        · by_contra hundeclared
          refine hdeclared ⟨rfl, hstate, key, ?_, hundeclared⟩
          rw [certMungeResponse_lookup hcurrent hne,
            Option.ne_none_iff_exists'] at hval
          exact Dict.fst_mem_keys.mpr hval
      · exact Client.mem_argumentSpec_of_desired hdesired
          (ClientClass.indexedKeys_desired hstate hkey)
    · exact Client.mem_argumentSpec_of_current hcert hcurrent hval

theorem Client.computeChanges_isOk_iff_class (cl : Client) (state : State)
    (desired current : Dict String Val) :
    (∃ changes, cl.computeChanges state desired current = .ok changes) ↔
      ∃ changes, cl.cls.computeChanges state desired current = .ok changes := by
  unfold Client.computeChanges
  cases cl.cls.computeChanges state desired current with
  | error err => simp
  | ok changes => cases cl <;> cases state <;> simp

/-- A diff of lists that can be hashed succeeds. -/
theorem Client.computeChanges_isOk {cl : Client} (hcert : cl ≠ .cert)
    {m : AnsibleModule} {obj desired current : Dict String Val}
    (hdesired : cl.mungeModuleParams m = .ok desired)
    (hcurrent : cl.mungeResponse m obj = .ok current)
    (hchange : cl.cls.HashableLists desired)
    (hcurr : cl.cls.HashableLists current) (state : State) :
    ∃ diffs, cl.computeChanges state desired current = .ok diffs := by
  rw [Client.computeChanges_isOk_iff_class]
  refine (ClientClass.computeChanges_isOk_iff hchange hcurr).mpr ?_
  intro key hindexed
  rcases ClientClass.indexedKeys_subset hindexed with hkey | hkey
  · exact Client.mem_argumentSpec_of_desired hdesired hkey
  · exact Client.mem_argumentSpec_of_current hcert hcurrent hkey

end Reads

end FreeipaProv
