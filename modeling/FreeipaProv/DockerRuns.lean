import FreeipaProv.DockerHost

/-!
# Runs of `docker_network`

What a run that succeeds leaves, when the next run of the same task finds
nothing to do, which runs succeed, and how far check mode foretells them.
-/

namespace FreeipaProv.DockerNetwork

open Fallible

/-! ## A host that keeps its networks in a map -/

/-- A network whose containers are connected to it once. -/
structure PlainNetwork extends Network where
  nodup : containers.Nodup

abbrev PlainHost := String → Option PlainNetwork

namespace PlainNetwork

def connect (network : PlainNetwork) (c : String)
    (hnew : c ∉ network.containers) : PlainNetwork where
  config := network.config
  containers := c :: network.containers
  nodup := List.nodup_cons.mpr ⟨hnew, network.nodup⟩

def disconnect (network : PlainNetwork) (c : String) : PlainNetwork where
  config := network.config
  containers := network.containers.filter (· ≠ c)
  nodup := network.nodup.filter _

/-- A new network is reported as it was asked for. -/
def created (args : CreateArgs) : PlainNetwork where
  config := {
    driver := args.driver
    options := args.options
    ipam := some ⟨args.ipamDriver.getD "default", args.ipamPools⟩
    enableIPv6 := args.enableIPv6 }
  containers := []
  nodup := List.nodup_nil

end PlainNetwork

/-- Docker over such a host, with the names of the networks as their ids. -/
def plainDocker : Docker PlainHost where
  networksByName s n := ((s n).map PlainNetwork.toNetwork).toList
  networksById _ _ := []
  inspectNetwork s n :=
    match s n with
    | some network => .ok network.toNetwork
    | none => .error (.failJson "no such network")
  ipamPool := .ok
  createNetwork s n args :=
    match s n with
    | some _ => .error (.failJson "network already exists")
    | none => .ok (n, Function.update s n (some (.created args)))
  removeNetwork s n :=
    match s n with
    | some network =>
        if network.containers = [] then .ok (Function.update s n none)
        else .error (.failJson "network has active endpoints")
    | none => .error (.failJson "no such network")
  connectContainer s c n :=
    match s n with
    | some network =>
        if hnew : c ∉ network.containers then
          .ok (Function.update s n (some (network.connect c hnew)))
        else .error (.failJson "endpoint already exists in network")
    | none => .error (.failJson "no such network")
  disconnectContainer s c n :=
    match s n with
    | some network =>
        if c ∈ network.containers then
          .ok (Function.update s n (some (network.disconnect c)))
        else .error (.failJson "container is not connected")
    | none => .error (.failJson "no such network")

def plainNets (s : PlainHost) (n : String) : Option Network :=
  (s n).map PlainNetwork.toNetwork

theorem plainNets_update (s : PlainHost) (name : String)
    (network : Option PlainNetwork) {change : Option NetView → Option NetView}
    (hchange : network.map (Network.view ∘ PlainNetwork.toNetwork) =
      change ((plainNets s name).map Network.view)) :
    (fun n => (plainNets (Function.update s name network) n).map
        Network.view) =
      HostView.within (fun n => (plainNets s n).map Network.view) name
        change := by
  unfold HostView.within
  funext n
  by_cases hname : n = name
  · subst hname
    rw [Function.update_self, ← hchange, plainNets, Function.update_self,
      Option.map_map]
  · rw [Function.update_of_ne hname, plainNets, Function.update_of_ne hname]
    rfl

def plainHost (name : String) : Host name PlainHost where
  toDocker := plainDocker
  nets := plainNets
  reported args := (PlainNetwork.created args).config
  byName_eq _ := rfl
  byId_eq _ := rfl
  inspect_eq := by
    intro s network hnets
    unfold plainNets at hnets
    obtain ⟨plain, hplain, rfl⟩ := Option.map_eq_some_iff.mp hnets
    simp only [plainDocker, hplain]
  created := by
    intro s args id s' hok hnets
    have hnone : s name = none := Option.map_eq_none_iff.mp hnets
    simp only [plainDocker, hnone, Except.ok.injEq, Prod.mk.injEq] at hok
    obtain ⟨rfl, rfl⟩ := hok
    constructor
    · simp only [plainDocker, Function.update_self]
      rfl
    · apply plainNets_update
      simp [Network.view, PlainNetwork.created]
  removed := by
    intro s s' hok
    simp only [plainDocker] at hok
    cases hplain : s name with
    | none =>
        rw [hplain] at hok
        contradiction
    | some network =>
        rw [hplain] at hok
        dsimp only at hok
        split_ifs at hok with hempty
        obtain rfl := Except.ok.inj hok
        apply plainNets_update
        rfl
  connected := by
    intro s c s' hok
    simp only [plainDocker] at hok
    cases hplain : s name with
    | none =>
        rw [hplain] at hok
        contradiction
    | some network =>
        rw [hplain] at hok
        dsimp only at hok
        split_ifs at hok with hnew
        obtain rfl := Except.ok.inj hok
        constructor
        · intro other hother
          simp only [plainNets, hplain, Option.map_some,
            Option.some.injEq] at hother
          rw [← hother]
          exact hnew
        · apply plainNets_update
          simp only [plainNets, hplain, Option.map_some, Function.comp_apply,
            addContainers, Network.view, PlainNetwork.connect,
            Option.some.injEq, Prod.mk.injEq, true_and]
          ext x
          simp
  disconnected := by
    intro s c s' hok
    simp only [plainDocker] at hok
    cases hplain : s name with
    | none =>
        rw [hplain] at hok
        contradiction
    | some network =>
        rw [hplain] at hok
        dsimp only at hok
        split_ifs at hok with hmem
        obtain rfl := Except.ok.inj hok
        apply plainNets_update
        simp only [plainNets, hplain, Option.map_some, Function.comp_apply,
          dropContainers, Network.view, PlainNetwork.disconnect,
          Option.some.injEq, Prod.mk.injEq, true_and]
        ext x
        simp

/-! ## What a run leaves -/

section Present

variable {σ : Type} {t : Task} {host : Host t.networkName σ} {mode : Mode}
  {s : σ} {results : Results σ}

/-- A run in state `present` that succeeds leaves the network as the task is
to have it and every other network as it was.  It reports a change unless the
network was kept with the containers it had. -/
theorem present_outcome (hstate : t.state = .present)
    (hreal : mode.checkMode = false)
    (hok : main host.toDocker mode t s = .ok results) :
    let before := host.nets s t.networkName
    ∃ net, t.Meets before host net ∧
      host.view results.server t.networkName = some net ∧
      (∀ other, other ≠ t.networkName →
        host.view results.server other = host.view s other) ∧
      (results.changed = true ↔ ∀ network, t.keeps before = some network →
        net.2 ≠ {c | c ∈ network.containers}) ∧
      results.facts = some (host.nets results.server t.networkName) := by
  unfold main at hok
  rw [hstate] at hok
  obtain ⟨net, hmeets, hview, hchanged, hfacts⟩ :=
    Host.present_spec hreal hok
  refine ⟨net, hmeets, ?_, ?_, hchanged, hfacts⟩
  · rw [hview, HostView.within_self]
  · intro other hother
    rw [hview, HostView.within, Function.update_of_ne hother]

/-- `web` with `a`, where the host has `web` with `b` and `c`. -/
def webTask : Task where
  networkName := "web"
  connected := ["a", "b"]

def webArgs : CreateArgs where
  driver := "bridge"
  options := ∅
  ipamDriver := none
  ipamPools := []
  enableIPv6 := false

def webHost : PlainHost := fun n =>
  if n = "web" then
    some ⟨⟨(PlainNetwork.created webArgs).config, ["b", "c"]⟩, by decide⟩
  else none

theorem webTask_outcome : ∃ results,
    main (plainHost "web").toDocker {} webTask webHost = .ok results ∧
      ∃ net, webTask.Meets (plainNets webHost "web") (plainHost "web") net ∧
        (plainHost "web").view results.server "web" = some net := by
  refine ⟨_, rfl, ?_⟩
  obtain ⟨net, hmeets, hview, -⟩ :
      ∃ net, webTask.Meets (plainNets webHost "web") (plainHost "web") net ∧
        _ ∧ _ :=
    @present_outcome _ webTask (plainHost "web") {} webHost _ rfl rfl rfl
  exact ⟨net, hmeets, hview⟩

/-- The next run of the task finds nothing to do exactly when it neither
forces nor sees a difference in what the host reports of the network. -/
theorem present_idempotent_iff (hstate : t.state = .present)
    (hreal : mode.checkMode = false)
    (hok : main host.toDocker mode t s = .ok results) :
    (∃ again, main host.toDocker mode t results.server = .ok again ∧
        again.changed = false ∧ again.server = results.server) ↔
      t.force = false ∧ ∀ network,
        host.nets results.server t.networkName = some network →
          differences t network.config = [] := by
  unfold main at hok ⊢
  rw [hstate] at hok ⊢
  dsimp only at hok ⊢
  obtain ⟨net, hmeets, hview, -, -⟩ := Host.present_spec hreal hok
  have hself : host.view results.server t.networkName = some net := by
    rw [hview, HostView.within_self]
  obtain ⟨network, hnets, -, hcontainers⟩ := Host.nets_of_view hself
  have hkeeps : t.keeps (some network) = some network ↔
      t.force = false ∧ differences t network.config = [] := by
    rw [Host.keeps_eq_some_iff]
    simp
  have hsettled : (t.force = false ∧ ∀ other,
      host.nets results.server t.networkName = some other →
        differences t other.config = []) ↔
      t.keeps (some network) = some network := by
    rw [hkeeps, hnets]
    simp
  rw [hsettled]
  constructor
  · rintro ⟨again, hagain, hchanged, -⟩
    obtain ⟨after, -, -, hiff, -⟩ := Host.present_spec hreal hagain
    rw [hnets, hchanged] at hiff
    cases hkept : t.keeps (some network) with
    | none =>
        rw [hkept] at hiff
        simp at hiff
    | some kept =>
        rw [← (Host.keeps_eq_some_iff.mp hkept).1]
  · intro hkept
    obtain ⟨hmissing, hextra⟩ := Host.Meets.listed hmeets hcontainers
    rw [Host.init_eq, hnets]
    exact Host.present_of_settled host.toDocker mode hkept hmissing hextra

theorem webTask_idempotent : ∃ results,
    main (plainHost "web").toDocker {} webTask webHost = .ok results ∧
      ∃ again, main (plainHost "web").toDocker {} webTask results.server =
        .ok again ∧ again.changed = false ∧ again.server = results.server := by
  refine ⟨_, rfl, ?_⟩
  apply (@present_idempotent_iff _ webTask (plainHost "web") {} webHost _ rfl
    rfl rfl).mpr
  constructor
  · rfl
  · intro network hnets
    obtain rfl := Option.some.inj hnets
    rfl

end Present

/-! ## Runs that succeed -/

/-- A host that does what it is asked, where it can. -/
structure Host.Obliging {name : String} {σ : Type} (host : Host name σ) :
    Prop where
  nodup : ∀ s network, host.nets s name = some network →
    network.containers.Nodup
  creates : ∀ s args, host.nets s name = none →
    ∃ made, host.createNetwork s name args = .ok made
  removes : ∀ s network, host.nets s name = some network →
    network.containers = [] → ∃ s', host.removeNetwork s name = .ok s'
  connects : ∀ s network c, host.nets s name = some network →
    c ∉ network.containers → ∃ s', host.connectContainer s c name = .ok s'
  disconnects : ∀ s network c, host.nets s name = some network →
    c ∈ network.containers → ∃ s', host.disconnectContainer s c name = .ok s'

theorem plainHost_obliging (name : String) : (plainHost name).Obliging where
  nodup := by
    intro s network hnets
    obtain ⟨plain, -, rfl⟩ := Option.map_eq_some_iff.mp hnets
    exact plain.nodup
  creates := by
    intro s args hnets
    have hnone : s name = none := Option.map_eq_none_iff.mp hnets
    simp [plainHost, plainDocker, hnone]
  removes := by
    intro s network hnets hempty
    obtain ⟨plain, hplain, rfl⟩ := Option.map_eq_some_iff.mp hnets
    simp [plainHost, plainDocker, hplain, hempty]
  connects := by
    intro s network c hnets hnew
    obtain ⟨plain, hplain, rfl⟩ := Option.map_eq_some_iff.mp hnets
    simp [plainHost, plainDocker, hplain, hnew]
  disconnects := by
    intro s network c hnets hmem
    obtain ⟨plain, hplain, rfl⟩ := Option.map_eq_some_iff.mp hnets
    simp [plainHost, plainDocker, hplain, hmem]

section Progress

variable {σ : Type} {t : Task} {host : Host t.networkName σ} {mode : Mode}
  {m m' : Manager σ} {network : Network} {s : σ}

theorem disconnectContainer_checkMode (hcheck : mode.checkMode = true)
    (docker : Docker σ) (m : Manager σ) (c : String) :
    m.disconnectContainer docker mode t c =
      .ok (m.act m.server ("Disconnected container " ++ c)) := by
  unfold Manager.disconnectContainer Manager.unlessCheck
  rw [hcheck]
  rfl

theorem actions_disconnectAll {docker : Docker σ} {cs : List String}
    (hok : runAll (Manager.disconnectContainer docker mode t) m cs = .ok m') :
    m'.actions = m.actions ++ cs.map ("Disconnected container " ++ ·) := by
  induction cs generalizing m with
  | nil =>
      obtain rfl := Except.ok.inj hok
      simp
  | cons c rest ih =>
      obtain ⟨mid, hstep, hrest⟩ := bind_eq_ok_iff.mp hok
      obtain ⟨server, -, hstep⟩ := bind_eq_ok_iff.mp hstep
      obtain rfl := Except.ok.inj hstep
      rw [ih hrest]
      simp [Manager.act]

theorem disconnectAll_checkMode (hcheck : mode.checkMode = true)
    (docker : Docker σ) (m : Manager σ) (cs : List String) :
    ∃ m', runAll (Manager.disconnectContainer docker mode t) m cs = .ok m' ∧
      m'.server = m.server ∧ m'.connected = m.connected := by
  induction cs generalizing m with
  | nil => exact ⟨m, rfl, rfl, rfl⟩
  | cons c rest ih =>
      rw [runAll, disconnectContainer_checkMode hcheck, ok_bind]
      exact ih _

/-- All containers of a network can be disconnected, and then none is left. -/
theorem disconnectAll_isOk (hobliging : host.Obliging)
    (hreal : mode.checkMode = false) {cs : List String} (hnodup : cs.Nodup)
    (hnets : host.nets m.server t.networkName = some network)
    (hcs : ∀ c ∈ cs, c ∈ network.containers) :
    ∃ m', runAll (Manager.disconnectContainer host.toDocker mode t) m cs =
      .ok m' := by
  induction cs generalizing m network with
  | nil => exact ⟨m, rfl⟩
  | cons c rest ih =>
      obtain ⟨s', hcall⟩ := hobliging.disconnects m.server network c hnets
        (hcs c List.mem_cons_self)
      have hstep : m.disconnectContainer host.toDocker mode t c =
          .ok (m.act s' ("Disconnected container " ++ c)) := by
        unfold Manager.disconnectContainer
        rw [Host.unlessCheck_real hreal, hcall]
        rfl
      have hview : host.view s' t.networkName =
          some (network.config, {x | x ∈ network.containers} \ {c}) := by
        have hdropped := congrFun (host.disconnected hcall) t.networkName
        rw [HostView.within_self] at hdropped
        rw [Host.view, hdropped, hnets]
        rfl
      obtain ⟨network', hnets', -, hcontainers⟩ := Host.nets_of_view hview
      rw [runAll, hstep, ok_bind]
      apply ih hnodup.of_cons hnets'
      intro x hx
      have hmem : x ∈ {y | y ∈ network'.containers} := by
        rw [hcontainers]
        refine ⟨hcs x (List.mem_cons_of_mem c hx), ?_⟩
        rintro rfl
        exact (List.nodup_cons.mp hnodup).1 hx
      exact hmem

theorem removeNetwork_isOk (hobliging : host.Obliging)
    (hexisting : m.existing = host.nets m.server t.networkName) :
    ∃ m', m.removeNetwork host.toDocker mode t = .ok m' ∧
      m'.actions = m.actions ++ (m.existing.map fun network =>
        network.containers.map ("Disconnected container " ++ ·) ++
          ["Removed network " ++ t.networkName]).getD [] ∧
      (m'.changed = true ↔ m.changed = true ∨ m.existing ≠ none) ∧
      if mode.checkMode then m'.server = m.server
      else host.view m'.server =
        (host.view m.server).within t.networkName fun _ => none := by
  cases hnets : host.nets m.server t.networkName with
  | none =>
      rw [hnets] at hexisting
      refine ⟨m, ?_, ?_, ?_, ?_⟩
      · unfold Manager.removeNetwork
        rw [hexisting]
      · simp [hexisting]
      · simp [hexisting]
      · split_ifs
        · rfl
        · unfold HostView.within
          rw [← Host.nets_eq_none_iff.mp hnets]
          exact (Function.update_eq_self _ _).symm
  | some network =>
      rw [hnets] at hexisting
      have hremove : ∀ mid s',
          runAll (Manager.disconnectContainer host.toDocker mode t) m
            network.containers = .ok mid →
          Manager.unlessCheck mode (host.removeNetwork · t.networkName)
            mid.server = .ok s' →
          m.removeNetwork host.toDocker mode t =
            .ok (mid.act s' ("Removed network " ++ t.networkName)) := by
        intro mid s' hall hcall
        unfold Manager.removeNetwork Manager.disconnectAllContainers
        rw [hexisting, host.inspect_eq _ _ hnets]
        dsimp only [ok_bind]
        rw [hall, ok_bind, hcall, ok_bind]
      have hactions : ∀ mid s',
          runAll (Manager.disconnectContainer host.toDocker mode t) m
            network.containers = .ok mid →
          (mid.act s' ("Removed network " ++ t.networkName)).actions =
            m.actions ++ (network.containers.map
              ("Disconnected container " ++ ·) ++
                ["Removed network " ++ t.networkName]) := by
        intro mid s' hall
        rw [Manager.act, actions_disconnectAll hall, List.append_assoc]
      cases hmode : mode.checkMode with
      | true =>
          obtain ⟨mid, hall, hserver, -⟩ := disconnectAll_checkMode hmode
            host.toDocker m network.containers
          have hcall : Manager.unlessCheck mode
              (host.removeNetwork · t.networkName) mid.server =
                .ok mid.server := by
            rw [Manager.unlessCheck, if_pos hmode]
          refine ⟨_, hremove mid _ hall hcall, ?_, ?_, hserver⟩
          · rw [hactions mid _ hall, hexisting]
            rfl
          · simp [Manager.act, hexisting]
      | false =>
          obtain ⟨mid, hall⟩ := disconnectAll_isOk hobliging hmode
            (hobliging.nodup _ _ hnets) hnets fun _ hc => hc
          have hview := (Host.became_disconnectAll hall).view hmode
          have hself : host.view mid.server t.networkName =
              some (network.config, ∅) := by
            rw [hview, HostView.within_self, Host.view_some hnets]
            simp [dropContainers, Network.view]
          obtain ⟨network', hnets', -, hcontainers⟩ :=
            Host.nets_of_view hself
          have hempty : network'.containers = [] := by
            apply List.eq_nil_iff_forall_not_mem.mpr
            intro c hc
            have hmem : c ∈ {x | x ∈ network'.containers} := hc
            rw [hcontainers] at hmem
            exact hmem
          obtain ⟨s', hcall⟩ := hobliging.removes _ _ hnets' hempty
          have hreal : Manager.unlessCheck mode
              (host.removeNetwork · t.networkName) mid.server = .ok s' := by
            rw [Host.unlessCheck_real hmode, hcall]
          refine ⟨_, hremove mid _ hall hreal, ?_, ?_, ?_⟩
          · rw [hactions mid _ hall, hexisting]
            rfl
          · simp [Manager.act, hexisting]
          · rw [if_neg (by simp)]
            change host.view s' = _
            have hremoved := host.removed hcall
            change host.view s' = (host.view mid.server).within _ _
              at hremoved
            rw [hremoved, hview, HostView.within_within]
            rfl

/-- A run in state `absent` succeeds, also without `force`: it disconnects the
containers one after the other and removes the network, and check mode
announces just this. -/
theorem absent_outcome (hstate : t.state = .absent)
    (hobliging : host.Obliging) (mode : Mode) (s : σ) :
    ∃ results, main host.toDocker mode t s = .ok results ∧
      (results.changed = true ↔ host.nets s t.networkName ≠ none) ∧
      results.actions = some (((host.nets s t.networkName).map fun network =>
        network.containers.map ("Disconnected container " ++ ·) ++
          ["Removed network " ++ t.networkName]).getD []) ∧
      if mode.checkMode then results.server = s
      else host.view results.server =
        (host.view s).within t.networkName fun _ => none := by
  obtain ⟨m', hremove, hactions, hchanged, hserver⟩ :
      ∃ m', (Manager.init host.toDocker t s).removeNetwork host.toDocker
        mode t = .ok m' ∧ _ :=
    removeNetwork_isOk hobliging (by rw [Host.init_eq])
  have hmain : main host.toDocker mode t s = .ok {
      changed := m'.changed
      actions := some m'.actions
      diff := none
      facts := none
      server := m'.server } := by
    unfold main absent
    rw [hstate]
    dsimp only
    rw [hremove, ok_bind]
  rw [Host.init_eq] at hactions hchanged hserver
  refine ⟨_, hmain, ?_, ?_, hserver⟩
  · rw [hchanged]
    simp
  · rw [hactions]
    rfl

theorem webTask_removed : ∃ results,
    main (plainHost "web").toDocker {} { webTask with state := .absent }
        webHost = .ok results ∧
      (results.changed = true ↔ plainNets webHost "web" ≠ none) ∧
      results.actions = some ["Disconnected container b",
        "Disconnected container c", "Removed network web"] ∧
      (plainHost "web").view results.server =
        ((plainHost "web").view webHost).within "web" fun _ => none :=
  @absent_outcome _ { webTask with state := .absent } (plainHost "web") rfl
    (plainHost_obliging "web") {} webHost

/-- Connecting succeeds where the containers that are not in the network are
listed once each. -/
theorem connectAll_isOk_iff (hobliging : host.Obliging)
    (hreal : mode.checkMode = false) {snapshot current : Network}
    {cs : List String} (hexisting : m.existing = some snapshot)
    (hnets : host.nets m.server t.networkName = some current) :
    (∃ m', runAll (Manager.connectContainer host.toDocker mode t) m cs =
        .ok m') ↔
      (cs.filter (· ∉ snapshot.containers)).Nodup ∧
        ∀ c ∈ cs.filter (· ∉ snapshot.containers), c ∉ current.containers := by
  induction cs generalizing m current with
  | nil => simp [runAll]
  | cons c rest ih =>
      have hstep : m.connectContainer host.toDocker mode t c =
          if c ∈ snapshot.containers then .ok m
          else (host.connectContainer m.server c t.networkName).map
            fun s' => m.act s' ("Connected container " ++ c) := by
        unfold Manager.connectContainer containerNamesInNetwork
        rw [hexisting]
        dsimp only [ok_bind]
        rw [Host.unlessCheck_real hreal]
        cases host.connectContainer m.server c t.networkName <;> rfl
      rw [runAll, hstep]
      by_cases hmem : c ∈ snapshot.containers
      · rw [if_pos hmem, ok_bind, ih hexisting hnets]
        simp [hmem]
      · rw [if_neg hmem, List.filter_cons_of_pos (by simpa using hmem)]
        cases hcall : host.connectContainer m.server c t.networkName with
        | error failure =>
            have hin : c ∈ current.containers := by
              by_contra hnot
              obtain ⟨s', hs'⟩ :=
                hobliging.connects m.server current c hnets hnot
              rw [hcall] at hs'
              contradiction
            constructor
            · rintro ⟨m', hm'⟩
              contradiction
            · rintro ⟨-, hnone⟩
              exact absurd hin (hnone c List.mem_cons_self)
        | ok s' =>
            have hnew := (host.connected hcall).1 current hnets
            have hview : host.view s' t.networkName =
                some (current.config, {x | x ∈ current.containers} ∪ {c}) := by
              have hadded :=
                congrFun (host.connected hcall).2 t.networkName
              rw [HostView.within_self] at hadded
              rw [Host.view, hadded, hnets]
              rfl
            obtain ⟨current', hnets', -, hcontainers⟩ :=
              Host.nets_of_view hview
            have hmem' : ∀ x, x ∈ current'.containers ↔
                x ∈ current.containers ∨ x = c := by
              intro x
              change x ∈ {y | y ∈ current'.containers} ↔ _
              rw [hcontainers]
              rfl
            change (∃ m', runAll _ (m.act s' _) rest = .ok m') ↔ _
            rw [@ih (m.act s' ("Connected container " ++ c)) _ hexisting
              hnets', List.nodup_cons]
            simp only [hmem', List.forall_mem_cons, not_or]
            constructor
            · rintro ⟨hnodup, hnone⟩
              refine ⟨⟨?_, hnodup⟩, hnew, fun x hx => (hnone x hx).1⟩
              intro hc
              exact (hnone c hc).2 rfl
            · rintro ⟨⟨hc, hnodup⟩, -, hnone⟩
              refine ⟨hnodup, fun x hx => ⟨hnone x hx, ?_⟩⟩
              rintro rfl
              exact hc hx

theorem present_isOk_iff {docker : Docker σ} :
    (∃ results, present docker mode t m = .ok results) ↔
      ∃ kept made mid last, m.replace docker mode t = .ok kept ∧
        kept.createNetwork docker mode t = .ok made ∧
        made.connectContainers docker mode t = .ok mid ∧
        mid.disconnectUnlisted docker mode t = .ok last := by
  constructor
  · rintro ⟨results, hok⟩
    obtain ⟨kept, hreplace, hok⟩ := bind_eq_ok_iff.mp hok
    obtain ⟨made, hcreate, hok⟩ := bind_eq_ok_iff.mp hok
    obtain ⟨mid, hconnect, hok⟩ := bind_eq_ok_iff.mp hok
    obtain ⟨last, hdrop, -⟩ := bind_eq_ok_iff.mp hok
    exact ⟨kept, made, mid, last, hreplace, hcreate, hconnect, hdrop⟩
  · rintro ⟨kept, made, mid, last, hreplace, hcreate, hconnect, hdrop⟩
    unfold present
    rw [hreplace, ok_bind, hcreate, ok_bind, hconnect, ok_bind, hdrop, ok_bind]
    exact ⟨_, rfl⟩

theorem reconcile_isOk_iff (hobliging : host.Obliging)
    (hreal : mode.checkMode = false) {snapshot current : Network}
    (hexisting : m.existing = some snapshot)
    (hnets : host.nets m.server t.networkName = some current)
    (hsame : {c | c ∈ current.containers} = {c | c ∈ snapshot.containers})
    (hnodup : snapshot.containers.Nodup) :
    (∃ mid last, m.connectContainers host.toDocker mode t = .ok mid ∧
        mid.disconnectUnlisted host.toDocker mode t = .ok last) ↔
      (m.connected.filter (· ∉ snapshot.containers)).Nodup := by
  have hmem : ∀ c, c ∈ current.containers ↔ c ∈ snapshot.containers :=
    fun c => Set.ext_iff.mp hsame c
  have hfresh : ∀ c ∈ m.connected.filter (· ∉ snapshot.containers),
      c ∉ current.containers := by
    intro c hc
    rw [hmem]
    simpa using (List.mem_filter.mp hc).2
  have hiff : (∃ mid, m.connectContainers host.toDocker mode t = .ok mid) ↔
      _ := connectAll_isOk_iff hobliging hreal hexisting hnets
  constructor
  · rintro ⟨mid, last, hconnect, -⟩
    exact (hiff.mp ⟨mid, hconnect⟩).1
  · intro hlisted
    obtain ⟨mid, hconnect⟩ := hiff.mpr ⟨hlisted, hfresh⟩
    have hbecame := Host.became_connectAll hexisting hconnect
    refine ⟨mid, ?_⟩
    unfold Manager.disconnectUnlisted
    cases t.appends with
    | true => exact ⟨mid, hconnect, rfl⟩
    | false =>
        unfold Manager.disconnectMissing
        rw [hbecame.existing, hexisting]
        have hview : host.view mid.server t.networkName =
            some (current.config, {c | c ∈ current.containers} ∪
              Host.unconnected snapshot m.connected) := by
          rw [hbecame.view hreal, HostView.within_self, Host.view_some hnets]
          rfl
        obtain ⟨after, hafter, -, hcontainers⟩ := Host.nets_of_view hview
        obtain ⟨last, hlast⟩ := disconnectAll_isOk hobliging hreal
          (hnodup.filter _) hafter (fun c hc => by
            change c ∈ {x | x ∈ after.containers}
            rw [hcontainers]
            exact Or.inl ((hmem c).mpr (List.mem_filter.mp hc).1))
        exact ⟨last, hconnect, hlast⟩

theorem present_isOk_of_kept (hobliging : host.Obliging)
    (hreal : mode.checkMode = false)
    (hexisting : m.existing = host.nets m.server t.networkName)
    (hkeeps : t.keeps m.existing = some network) :
    (∃ results, present host.toDocker mode t m = .ok results) ↔
      (m.connected.filter (· ∉ network.containers)).Nodup := by
  obtain ⟨hreplace, hnetwork⟩ := Host.replace_of_kept host.toDocker mode hkeeps
  have hnets := hexisting.symm.trans hnetwork
  have hcreate : m.createNetwork host.toDocker mode t = .ok m := by
    unfold Manager.createNetwork
    rw [hnetwork]
  rw [present_isOk_iff, ← reconcile_isOk_iff hobliging hreal hnetwork hnets rfl
    (hobliging.nodup _ _ hnets)]
  constructor
  · rintro ⟨kept, made, mid, last, hkept, hmade, hrest⟩
    rw [hreplace] at hkept
    obtain rfl := Except.ok.inj hkept
    rw [hcreate] at hmade
    obtain rfl := Except.ok.inj hmade
    exact ⟨mid, last, hrest⟩
  · rintro ⟨mid, last, hrest⟩
    exact ⟨m, m, mid, last, hreplace, hcreate, hrest⟩

theorem replace_isOk (hobliging : host.Obliging)
    (hexisting : m.existing = host.nets m.server t.networkName) :
    ∃ kept, m.replace host.toDocker mode t = .ok kept := by
  unfold Manager.replace
  cases m.replaces t with
  | false => exact ⟨m, rfl⟩
  | true =>
      obtain ⟨m', hremove, -⟩ : ∃ m', m.removeNetwork host.toDocker mode t =
          .ok m' ∧ _ := removeNetwork_isOk hobliging hexisting
      rw [hremove]
      exact ⟨_, rfl⟩

theorem createNetwork_isOk (hobliging : host.Obliging)
    (hreal : mode.checkMode = false) (hexisting : m.existing = none)
    (hnets : host.nets m.server t.networkName = none) {args : CreateArgs}
    (hargs : createArgs host.toDocker t = .ok args) :
    ∃ made, m.createNetwork host.toDocker mode t = .ok made := by
  obtain ⟨⟨id, s'⟩, hcall⟩ := hobliging.creates m.server args hnets
  unfold Manager.createNetwork createdNetwork
  rw [hexisting, hreal]
  dsimp only
  rw [hargs, ok_bind, hcall]
  dsimp only [ok_bind]
  rw [(host.created hcall hnets).1]
  exact ⟨_, rfl⟩

theorem present_isOk_of_not_kept (hobliging : host.Obliging)
    (hreal : mode.checkMode = false)
    (hexisting : m.existing = host.nets m.server t.networkName)
    (hkeeps : t.keeps m.existing = none) :
    (∃ results, present host.toDocker mode t m = .ok results) ↔
      (∃ args, createArgs host.toDocker t = .ok args) ∧
        m.connected.Nodup := by
  have hmade : ∀ kept made, m.replace host.toDocker mode t = .ok kept →
      kept.createNetwork host.toDocker mode t = .ok made →
      (∃ args, createArgs host.toDocker t = .ok args) ∧
        ((∃ mid last, made.connectContainers host.toDocker mode t = .ok mid ∧
          mid.disconnectUnlisted host.toDocker mode t = .ok last) ↔
            m.connected.Nodup) := by
    intro kept made hreplace hcreate
    obtain ⟨hgone, hnone, hlisted⟩ :=
      Host.replace_of_not_kept hreal hexisting hkeeps hreplace
    have hnets : host.nets kept.server t.networkName = none := by
      rw [Host.nets_eq_none_iff, hgone, HostView.within_self]
    obtain ⟨args, hargs, hview, hsnapshot, hconnected, -⟩ :=
      Host.createNetwork_of_none hreal hnone hnets hcreate
    have hself : host.view made.server t.networkName =
        some (host.reported args, ∅) := by
      rw [hview, HostView.within_self]
    obtain ⟨current, hcurrent, -, hcontainers⟩ := Host.nets_of_view hself
    constructor
    · exact ⟨args, hargs⟩
    · rw [reconcile_isOk_iff hobliging hreal hsnapshot hcurrent
        (by rw [hcontainers]; simp) List.nodup_nil, hconnected, hlisted]
      simp
  rw [present_isOk_iff]
  constructor
  · rintro ⟨kept, made, mid, last, hreplace, hcreate, hrest⟩
    obtain ⟨hargs, hiff⟩ := hmade kept made hreplace hcreate
    exact ⟨hargs, hiff.mp ⟨mid, last, hrest⟩⟩
  · rintro ⟨⟨args, hargs⟩, hnodup⟩
    obtain ⟨kept, hreplace⟩ : ∃ kept, m.replace host.toDocker mode t =
      .ok kept := replace_isOk hobliging hexisting
    obtain ⟨hgone, hnone, -⟩ :=
      Host.replace_of_not_kept hreal hexisting hkeeps hreplace
    have hnets : host.nets kept.server t.networkName = none := by
      rw [Host.nets_eq_none_iff, hgone, HostView.within_self]
    obtain ⟨made, hcreate⟩ :=
      createNetwork_isOk hobliging hreal hnone hnets hargs
    obtain ⟨mid, last, hrest⟩ :=
      (hmade kept made hreplace hcreate).2.mpr hnodup
    exact ⟨kept, made, mid, last, hreplace, hcreate, hrest⟩

/-- A run in state `present` succeeds unless the options cannot be made into a
pool for the network to create, or a container is listed twice that is not in
the network. -/
theorem present_succeeds_iff (hstate : t.state = .present)
    (hobliging : host.Obliging) (hreal : mode.checkMode = false) (s : σ) :
    (∃ results, main host.toDocker mode t s = .ok results) ↔
      let before := host.nets s t.networkName
      (∃ network, t.keeps before = some network ∧
          ((t.listed before).filter (· ∉ network.containers)).Nodup) ∨
        t.keeps before = none ∧
          (∃ args, createArgs host.toDocker t = .ok args) ∧
          (t.listed before).Nodup := by
  have hmain : main host.toDocker mode t s =
      present host.toDocker mode t (Manager.init host.toDocker t s) := by
    unfold main
    rw [hstate]
  have hexisting : (Manager.init host.toDocker t s).existing =
      host.nets s t.networkName := by rw [Host.init_eq]
  have hlisted : (Manager.init host.toDocker t s).connected =
      t.listed (host.nets s t.networkName) := by rw [Host.init_eq]
  rw [hmain]
  dsimp only
  cases hkeeps : t.keeps (host.nets s t.networkName) with
  | some network =>
      rw [present_isOk_of_kept hobliging hreal hexisting
        (by rw [hexisting]; exact hkeeps), hlisted]
      simp
  | none =>
      rw [present_isOk_of_not_kept hobliging hreal hexisting
        (by rw [hexisting]; exact hkeeps), hlisted]
      simp

theorem webTask_twice : ¬∃ results, main (plainHost "web").toDocker {}
    { webTask with connected := ["a", "a"] } webHost = .ok results := by
  intro hok
  have hlisted := (@present_succeeds_iff _
    { webTask with connected := ["a", "a"] } (plainHost "web") {} rfl
    (plainHost_obliging "web") rfl webHost).mp hok
  rcases hlisted with ⟨network, hkeeps, hnodup⟩ | ⟨-, -, hnodup⟩
  · obtain rfl := Option.some.inj hkeeps
    exact absurd hnodup (by decide)
  · exact absurd hnodup (by decide)

end Progress

/-! ## Check mode -/

section CheckMode

variable {σ : Type} {t : Task} {host : Host t.networkName σ} {mode : Mode}
  {m : Manager σ} {network : Network} {s : σ}

theorem existing_replace {docker : Docker σ} {kept : Manager σ}
    (hkeeps : t.keeps m.existing = none)
    (hok : m.replace docker mode t = .ok kept) : kept.existing = none := by
  unfold Manager.replace at hok
  split_ifs at hok with hreplaces
  · obtain ⟨mid, -, hok⟩ := bind_eq_ok_iff.mp hok
    rw [← Except.ok.inj hok]
  · obtain rfl := Except.ok.inj hok
    cases hexisting : m.existing with
    | none => rfl
    | some network =>
        have hkept : t.keeps (some network) = some network := by
          rw [Host.keeps_eq_some_iff]
          simpa [Manager.replaces, Manager.differences, hexisting]
            using hreplaces
        rw [hexisting, hkept] at hkeeps
        contradiction

theorem changed_createNetwork {docker : Docker σ} {made : Manager σ}
    (hexisting : m.existing = none)
    (hok : m.createNetwork docker mode t = .ok made) :
    made.changed = true := by
  unfold Manager.createNetwork at hok
  rw [hexisting] at hok
  obtain ⟨args, -, hok⟩ := bind_eq_ok_iff.mp hok
  cases hmode : mode.checkMode with
  | true =>
      rw [hmode] at hok
      rw [← Except.ok.inj hok]
      rfl
  | false =>
      rw [hmode] at hok
      obtain ⟨created, -, hok⟩ := bind_eq_ok_iff.mp hok
      rw [← Except.ok.inj hok]
      rfl

/-- What has changed stays changed. -/
theorem changed_reconcile {docker : Docker σ} {mid last : Manager σ}
    (hchanged : m.changed = true)
    (hconnect : m.connectContainers docker mode t = .ok mid)
    (hdrop : mid.disconnectUnlisted docker mode t = .ok last) :
    last.changed = true := by
  have hmid : mid.changed = true := by
    refine runAll_invariant (fun m => m.changed = true) ?_ hchanged hconnect
    intro c _ m m' hinv hstep
    obtain ⟨names, -, hstep⟩ := bind_eq_ok_iff.mp hstep
    split_ifs at hstep
    · rw [← Except.ok.inj hstep]
      exact hinv
    · obtain ⟨server, -, hstep⟩ := bind_eq_ok_iff.mp hstep
      rw [← Except.ok.inj hstep]
      rfl
  unfold Manager.disconnectUnlisted Manager.disconnectMissing at hdrop
  split_ifs at hdrop
  · rw [← Except.ok.inj hdrop]
    exact hmid
  · cases hexisting : mid.existing with
    | none =>
        rw [hexisting] at hdrop
        rw [← Except.ok.inj hdrop]
        exact hmid
    | some network =>
        rw [hexisting] at hdrop
        refine runAll_invariant (fun m => m.changed = true) ?_ hmid hdrop
        intro c _ m m' _ hstep
        obtain ⟨server, -, hstep⟩ := bind_eq_ok_iff.mp hstep
        rw [← Except.ok.inj hstep]
        rfl

/-- In any mode a run reports a change exactly when it does not keep the
network, or has containers to connect or to disconnect. -/
theorem present_changed {results : Results σ}
    (hok : present host.toDocker mode t (Manager.init host.toDocker t s) =
      .ok results) :
    let before := host.nets s t.networkName
    results.changed = true ↔ ∀ network, t.keeps before = some network →
      (∃ c ∈ t.listed before, c ∉ network.containers) ∨
        t.appends = false ∧
          ∃ c ∈ network.containers, c ∉ t.listed before := by
  intro before
  rw [Host.init_eq] at hok
  obtain ⟨kept, hreplace, hok⟩ := bind_eq_ok_iff.mp hok
  obtain ⟨made, hcreate, hok⟩ := bind_eq_ok_iff.mp hok
  obtain ⟨mid, hconnect, hok⟩ := bind_eq_ok_iff.mp hok
  obtain ⟨last, hdrop, hok⟩ := bind_eq_ok_iff.mp hok
  obtain rfl := Except.ok.inj hok
  cases hkeeps : t.keeps before with
  | some network =>
      obtain ⟨hsame, hexisting⟩ :
          Manager.replace host.toDocker mode t
              ⟨s, before, t.listed before, false, []⟩ = .ok _ ∧ _ :=
        Host.replace_of_kept host.toDocker mode hkeeps
      rw [hsame] at hreplace
      obtain rfl := Except.ok.inj hreplace
      unfold Manager.createNetwork at hcreate
      rw [hexisting] at hcreate
      obtain rfl := Except.ok.inj hcreate
      have hbecame := Host.became_reconcile hexisting hconnect hdrop
      rw [hbecame.changed]
      simp
  | none =>
      have hmade := changed_createNetwork (existing_replace hkeeps hreplace)
        hcreate
      simp [changed_reconcile hmade hconnect hdrop]

theorem unlessCheck_checkMode (hcheck : mode.checkMode = true)
    (call : σ → Except Failure σ) (s : σ) :
    Manager.unlessCheck mode call s = .ok s := by
  rw [Manager.unlessCheck, if_pos hcheck]

theorem connectAll_checkMode (hcheck : mode.checkMode = true)
    (docker : Docker σ) (hexisting : m.existing = some network)
    (cs : List String) :
    ∃ m', runAll (Manager.connectContainer docker mode t) m cs = .ok m' := by
  induction cs generalizing m with
  | nil => exact ⟨m, rfl⟩
  | cons c rest ih =>
      have hstep : ∃ mid, m.connectContainer docker mode t c = .ok mid ∧
          mid.existing = some network := by
        unfold Manager.connectContainer containerNamesInNetwork
        rw [hexisting, unlessCheck_checkMode hcheck]
        dsimp only [ok_bind]
        split_ifs
        · exact ⟨m, rfl, hexisting⟩
        · exact ⟨_, rfl, hexisting⟩
      obtain ⟨mid, hmid, hsame⟩ := hstep
      rw [runAll, hmid, ok_bind]
      exact ih hsame

theorem replace_checkMode (hcheck : mode.checkMode = true)
    (hexisting : m.existing = host.nets m.server t.networkName) :
    ∃ kept, m.replace host.toDocker mode t = .ok kept ∧
      kept.server = m.server ∧ kept.connected = m.connected := by
  unfold Manager.replace
  cases m.replaces t with
  | false => exact ⟨m, rfl, rfl, rfl⟩
  | true =>
      unfold Manager.removeNetwork Manager.disconnectAllContainers
      cases hnet : m.existing with
      | none => exact ⟨_, rfl, rfl, rfl⟩
      | some network =>
          obtain ⟨mid, hall, hserver, hconnected⟩ := disconnectAll_checkMode
            (t := t) hcheck host.toDocker m network.containers
          dsimp only
          rw [host.inspect_eq _ _ (hexisting.symm.trans hnet), ok_bind, hall,
            ok_bind, unlessCheck_checkMode hcheck]
          exact ⟨_, rfl, hserver, hconnected⟩

theorem present_checkMode_of_kept (hcheck : mode.checkMode = true)
    (hkeeps : t.keeps m.existing = some network) :
    ∃ results, present host.toDocker mode t m = .ok results ∧
      results.server = m.server := by
  obtain ⟨hreplace, hexisting⟩ := Host.replace_of_kept host.toDocker mode hkeeps
  have hcreate : m.createNetwork host.toDocker mode t = .ok m := by
    unfold Manager.createNetwork
    rw [hexisting]
  obtain ⟨mid, hconnect⟩ :=
    connectAll_checkMode (t := t) hcheck host.toDocker hexisting m.connected
  have hbecame := Host.became_connectAll hexisting hconnect
  have hdrop : ∃ last, mid.disconnectUnlisted host.toDocker mode t =
      .ok last ∧ last.server = mid.server := by
    unfold Manager.disconnectUnlisted Manager.disconnectMissing
    rw [hbecame.existing, hexisting]
    split_ifs
    · exact ⟨mid, rfl, rfl⟩
    · obtain ⟨last, hlast, hserver, -⟩ := disconnectAll_checkMode (t := t)
        hcheck host.toDocker mid
          (network.containers.filter (· ∉ mid.connected))
      exact ⟨last, hlast, hserver⟩
  obtain ⟨last, hlast, hserver⟩ := hdrop
  unfold present
  rw [hreplace, ok_bind, hcreate, ok_bind]
  change ∃ results, (runAll _ m m.connected >>= _) = Except.ok results ∧ _
  rw [hconnect, ok_bind, hlast, ok_bind]
  exact ⟨_, rfl, hserver.trans (hbecame.server hcheck)⟩

/-- Where the network is not kept, check mode goes on without a network and
fails as soon as there is a container to connect. -/
theorem present_checkMode_of_not_kept (hcheck : mode.checkMode = true)
    (hexisting : m.existing = host.nets m.server t.networkName)
    (hkeeps : t.keeps m.existing = none) {args : CreateArgs}
    (hargs : createArgs host.toDocker t = .ok args) :
    if m.connected = [] then
      ∃ results, present host.toDocker mode t m = .ok results ∧
        results.server = m.server
    else present host.toDocker mode t m = .error .typeError := by
  obtain ⟨kept, hreplace, hserver, hconnected⟩ :
      ∃ kept, m.replace host.toDocker mode t = .ok kept ∧ _ :=
    replace_checkMode hcheck hexisting
  have hnone := existing_replace hkeeps hreplace
  have hcreate : kept.createNetwork host.toDocker mode t =
      .ok (kept.act kept.server ("Created network " ++ t.networkName ++
        " with driver " ++ t.driver)) := by
    unfold Manager.createNetwork
    rw [hnone, hargs]
    dsimp only [ok_bind]
    rw [if_pos hcheck]
  unfold present
  rw [hreplace, ok_bind, hcreate, ok_bind]
  unfold Manager.connectContainers Manager.act
  dsimp only
  rw [hconnected]
  cases m.connected with
  | nil =>
      rw [if_pos rfl, runAll, ok_bind]
      unfold Manager.disconnectUnlisted Manager.disconnectMissing
      dsimp only
      rw [hnone]
      dsimp only
      rw [ite_self, ok_bind]
      exact ⟨_, rfl, hserver⟩
  | cons c rest =>
      rw [if_neg (List.cons_ne_nil c rest), runAll]
      unfold Manager.connectContainer containerNamesInNetwork
      dsimp only
      rw [hnone]
      rfl

theorem present_checkMode_of_refused (hcheck : mode.checkMode = true)
    (hexisting : m.existing = host.nets m.server t.networkName)
    (hkeeps : t.keeps m.existing = none) {failure : Failure}
    (hargs : createArgs host.toDocker t = .error failure) :
    present host.toDocker mode t m = .error failure := by
  obtain ⟨kept, hreplace, -⟩ :
      ∃ kept, m.replace host.toDocker mode t = .ok kept ∧ _ :=
    replace_checkMode hcheck hexisting
  have hcreate : kept.createNetwork host.toDocker mode t = .error failure := by
    unfold Manager.createNetwork
    rw [existing_replace hkeeps hreplace, hargs]
    rfl
  unfold present
  rw [hreplace, ok_bind, hcreate, error_bind]

/-- In check mode a run in state `present` fails exactly where the network is
not kept, and its IPAM options make no pool or there is a container to connect.
Otherwise it leaves the host alone and foretells whether the run reports a
change. -/
theorem checkMode_present (hstate : t.state = .present)
    (hcheck : mode.checkMode = true) (s : σ) :
    let before := host.nets s t.networkName
    (∀ failure, t.keeps before = none →
      createArgs host.toDocker t = .error failure →
      main host.toDocker mode t s = .error failure) ∧
    (∀ args, t.keeps before = none → createArgs host.toDocker t = .ok args →
      t.listed before ≠ [] →
      main host.toDocker mode t s = .error .typeError) ∧
    (t.keeps before ≠ none ∨
        (∃ args, createArgs host.toDocker t = .ok args) ∧
          t.listed before = [] →
      ∃ announced, main host.toDocker mode t s = .ok announced ∧
        announced.server = s ∧ ∀ real results, real.checkMode = false →
          main host.toDocker real t s = .ok results →
            announced.changed = results.changed) := by
  intro before
  have hmain : ∀ mode, main host.toDocker mode t s =
      present host.toDocker mode t (Manager.init host.toDocker t s) := by
    intro mode
    unfold main
    rw [hstate]
  have hexisting : (Manager.init host.toDocker t s).existing = before := by
    rw [Host.init_eq]
  have hlisted : (Manager.init host.toDocker t s).connected =
      t.listed before := by rw [Host.init_eq]
  have hforetold : ∀ announced,
      main host.toDocker mode t s = .ok announced →
      ∀ real results, real.checkMode = false →
        main host.toDocker real t s = .ok results →
          announced.changed = results.changed := by
    intro announced hannounced real results _ hresults
    rw [hmain] at hannounced hresults
    have hchanged := present_changed hannounced
    have hresult := present_changed hresults
    exact Bool.eq_iff_iff.mpr (hchanged.trans hresult.symm)
  have hrun : ∀ args, t.keeps before = none →
      createArgs host.toDocker t = .ok args → _ :=
    fun args hkeeps hargs => present_checkMode_of_not_kept hcheck hexisting
      (by rw [hexisting]; exact hkeeps) hargs
  rw [hlisted, ← hmain] at hrun
  refine ⟨fun failure hkeeps hargs => ?_, fun args hkeeps hargs hne => ?_, ?_⟩
  · rw [hmain]
    exact present_checkMode_of_refused hcheck hexisting
      (by rw [hexisting]; exact hkeeps) hargs
  · have hfails := hrun args hkeeps hargs
    rw [if_neg hne] at hfails
    exact hfails
  · intro hgoes
    obtain ⟨announced, hok, hserver⟩ : ∃ announced,
        main host.toDocker mode t s = .ok announced ∧
          announced.server = s := by
      cases hkeeps : t.keeps before with
      | some network =>
          rw [hmain]
          exact present_checkMode_of_kept hcheck
            (by rw [hexisting]; exact hkeeps)
      | none =>
          obtain hkept | ⟨⟨args, hargs⟩, hempty⟩ := hgoes
          · exact absurd hkeeps hkept
          · have hannounced := hrun args hkeeps hargs
            rw [if_pos hempty] at hannounced
            exact hannounced
    exact ⟨announced, hok, hserver, hforetold announced hok⟩

theorem webTask_announced : ∃ announced,
    main (plainHost "web").toDocker { checkMode := true } webTask webHost =
        .ok announced ∧
      announced.server = webHost ∧ ∀ real results, real.checkMode = false →
        main (plainHost "web").toDocker real webTask webHost = .ok results →
          announced.changed = results.changed := by
  have hrun := @checkMode_present _ webTask (plainHost "web")
    { checkMode := true } rfl rfl webHost
  have hkept : webTask.keeps ((plainHost "web").nets webHost "web") ≠ none :=
    Option.some_ne_none _
  exact hrun.2.2 (Or.inl hkept)

end CheckMode

end FreeipaProv.DockerNetwork
