import FreeipaProv.DockerNetwork

/-!
# What a `docker_network` task does to a host

The host has networks under their names, each with a configuration and a set
of containers.  A task in state `present` that succeeds leaves one network as
it should be and every other as it was, and the next run of the task finds
nothing to do unless it replaces the network again.
-/

namespace FreeipaProv.DockerNetwork

open Fallible

/-! ## Hosts -/

/-- A network as a configuration and a set of containers. -/
abbrev NetView := NetConfig × Set String

abbrev HostView := String → Option NetView

def Network.view (network : Network) : NetView :=
  (network.config, {c | c ∈ network.containers})

/-- Change one network of the host. -/
def HostView.within (host : HostView) (name : String)
    (change : Option NetView → Option NetView) : HostView :=
  Function.update host name (change (host name))

@[simp] theorem HostView.within_self (host : HostView) (name : String)
    (change : Option NetView → Option NetView) :
    host.within name change name = change (host name) :=
  Function.update_self _ _ _

@[simp] theorem HostView.within_within (host : HostView) (name : String)
    (first second : Option NetView → Option NetView) :
    (host.within name first).within name second =
      host.within name (second ∘ first) := by
  unfold HostView.within
  rw [Function.update_idem, Function.update_self]
  rfl

theorem HostView.within_congr {host : HostView} {name : String}
    {change change' : Option NetView → Option NetView}
    (hsame : change (host name) = change' (host name)) :
    host.within name change = host.within name change' := by
  unfold HostView.within
  rw [hsame]

theorem HostView.within_id (host : HostView) (name : String) :
    host.within name id = host := by
  unfold HostView.within
  exact Function.update_eq_self _ _

def addContainers (added : Set String) : Option NetView → Option NetView :=
  Option.map fun net => (net.1, net.2 ∪ added)

def dropContainers (dropped : Set String) : Option NetView → Option NetView :=
  Option.map fun net => (net.1, net.2 \ dropped)

/-- A host on which the name of a network is no part of another network's
name and no id, so that the searches find just this network.  Containers are
given by their names. -/
structure Host (name : String) (σ : Type) extends Docker σ where
  nets : σ → String → Option Network
  /-- how the host reports a network it has created -/
  reported : CreateArgs → NetConfig
  byName_eq : ∀ s, networksByName s name = (nets s name).toList
  byId_eq : ∀ s, networksById s name = []
  inspect_eq : ∀ s network, nets s name = some network →
    inspectNetwork s name = .ok network
  created : ∀ {s args id s'}, createNetwork s name args = .ok (id, s') →
    nets s name = none → inspectNetwork s' id = .ok ⟨reported args, []⟩ ∧
      (fun n => (nets s' n).map Network.view) =
        HostView.within (fun n => (nets s n).map Network.view) name
          fun _ => some (reported args, ∅)
  removed : ∀ {s s'}, removeNetwork s name = .ok s' →
    (fun n => (nets s' n).map Network.view) =
      HostView.within (fun n => (nets s n).map Network.view) name
        fun _ => none
  connected : ∀ {s c s'}, connectContainer s c name = .ok s' →
    (∀ network, nets s name = some network → c ∉ network.containers) ∧
      (fun n => (nets s' n).map Network.view) =
        HostView.within (fun n => (nets s n).map Network.view) name
          (addContainers {c})
  disconnected : ∀ {s c s'}, disconnectContainer s c name = .ok s' →
    (fun n => (nets s' n).map Network.view) =
      HostView.within (fun n => (nets s n).map Network.view) name
        (dropContainers {c})

namespace Host

variable {name : String} {σ : Type} (host : Host name σ)

def view (s : σ) : HostView := fun n => (host.nets s n).map Network.view

/-- A manager has become another one: what happened to the network, which is
nothing in check mode, and whether anything was done. -/
structure Became (mode : Mode) (m m' : Manager σ)
    (change : Option NetView → Option NetView) (acted : Prop) : Prop where
  server : mode.checkMode = true → m'.server = m.server
  view : mode.checkMode = false →
    host.view m'.server = (host.view m.server).within name change
  existing : m'.existing = m.existing
  connected : m'.connected = m.connected
  changed : m'.changed = true ↔ m.changed = true ∨ acted

variable {host} {mode : Mode} {m m₁ m₂ : Manager σ}
  {change later : Option NetView → Option NetView} {acted acts : Prop}

theorem became_refl (mode : Mode) (m : Manager σ) :
    host.Became mode m m id False where
  server _ := rfl
  view _ := (HostView.within_id _ _).symm
  existing := rfl
  connected := rfl
  changed := by simp

theorem Became.trans (hfirst : host.Became mode m m₁ change acted)
    (hsecond : host.Became mode m₁ m₂ later acts) :
    host.Became mode m m₂ (later ∘ change) (acted ∨ acts) where
  server hcheck := (hsecond.server hcheck).trans (hfirst.server hcheck)
  view hreal := by
    rw [hsecond.view hreal, hfirst.view hreal, HostView.within_within]
  existing := hsecond.existing.trans hfirst.existing
  connected := hsecond.connected.trans hfirst.connected
  changed := by
    rw [hsecond.changed, hfirst.changed, or_assoc]

/-- A call to the server, which is left out in check mode. -/
theorem became_call {call : σ → Except Failure σ} {server : σ}
    {action : String}
    (hcall : Manager.unlessCheck mode call m.server = .ok server)
    (hview : call m.server = .ok server →
      host.view server = (host.view m.server).within name change) :
    host.Became mode m (m.act server action) change True where
  server hcheck := by
    rw [Manager.unlessCheck, if_pos hcheck] at hcall
    exact (Except.ok.inj hcall).symm
  view hreal := by
    rw [Manager.unlessCheck, hreal] at hcall
    exact hview hcall
  existing := rfl
  connected := rfl
  changed := by simp [Manager.act]

theorem addContainers_comp (added more : Set String) :
    addContainers more ∘ addContainers added = addContainers (added ∪ more) := by
  funext net
  cases net with
  | none => rfl
  | some net =>
      simp only [addContainers, Function.comp_apply, Option.map_some,
        Set.union_assoc]

theorem addContainers_empty : addContainers ∅ = id := by
  funext net
  cases net with
  | none => rfl
  | some net => simp [addContainers]

theorem dropContainers_comp (dropped more : Set String) :
    dropContainers more ∘ dropContainers dropped =
      dropContainers (dropped ∪ more) := by
  funext net
  cases net with
  | none => rfl
  | some net =>
      simp only [dropContainers, Function.comp_apply, Option.map_some,
        Set.sdiff_sdiff]

theorem dropContainers_empty : dropContainers ∅ = id := by
  funext net
  cases net with
  | none => rfl
  | some net => simp [dropContainers]

/-! ## Connecting and disconnecting -/

section Steps

variable {t : Task} {host : Host t.networkName σ}

theorem unlessCheck_real (hreal : mode.checkMode = false)
    (call : σ → Except Failure σ) (s : σ) :
    Manager.unlessCheck mode call s = call s := by
  rw [Manager.unlessCheck, hreal]
  rfl

theorem became_disconnect {c : String}
    (hok : m.disconnectContainer host.toDocker mode t c = .ok m₁) :
    host.Became mode m m₁ (dropContainers {c}) True := by
  obtain ⟨server, hcall, hok⟩ := bind_eq_ok_iff.mp hok
  obtain rfl := Except.ok.inj hok
  exact became_call hcall host.disconnected

theorem became_disconnectAll {cs : List String}
    (hok : runAll (Manager.disconnectContainer host.toDocker mode t) m cs =
      .ok m₁) :
    host.Became mode m m₁ (dropContainers {c | c ∈ cs}) (cs ≠ []) := by
  induction cs generalizing m with
  | nil =>
      obtain rfl := Except.ok.inj hok
      have hnone : {c : String | c ∈ ([] : List String)} = ∅ := by simp
      rw [hnone, dropContainers_empty]
      simpa using became_refl mode m
  | cons c rest ih =>
      obtain ⟨mid, hfirst, hrest⟩ := bind_eq_ok_iff.mp hok
      have hboth := (became_disconnect hfirst).trans (ih hrest)
      have hset : {x | x ∈ c :: rest} = {c} ∪ {x | x ∈ rest} := by
        ext x
        simp
      rw [hset, ← dropContainers_comp]
      simpa using hboth

/-- The containers that are to be connected, and are not yet. -/
def unconnected (network : Network) (cs : List String) : Set String :=
  {c | c ∈ cs ∧ c ∉ network.containers}

theorem became_connect {c : String} {network : Network}
    (hexisting : m.existing = some network)
    (hok : m.connectContainer host.toDocker mode t c = .ok m₁) :
    host.Became mode m m₁ (addContainers (unconnected network [c]))
      (c ∉ network.containers) := by
  obtain ⟨names, hnames, hok⟩ := bind_eq_ok_iff.mp hok
  rw [hexisting] at hnames
  obtain rfl := Except.ok.inj hnames
  split_ifs at hok with hmem
  · obtain rfl := Except.ok.inj hok
    have hnone : unconnected network [c] = ∅ := by
      ext x
      simp [unconnected]
      rintro rfl
      exact hmem
    rw [hnone, addContainers_empty]
    simpa [hmem] using became_refl mode m
  · obtain ⟨server, hcall, hok⟩ := bind_eq_ok_iff.mp hok
    obtain rfl := Except.ok.inj hok
    have hone : unconnected network [c] = {c} := by
      ext x
      simp [unconnected]
      rintro rfl
      exact hmem
    have hcalled : host.Became mode m
        (m.act server ("Connected container " ++ c)) (addContainers {c})
          True := became_call hcall fun hok => (host.connected hok).2
    rw [hone]
    simpa [hmem] using hcalled

theorem became_connectAll {network : Network} {cs : List String}
    (hexisting : m.existing = some network)
    (hok : runAll (Manager.connectContainer host.toDocker mode t) m cs =
      .ok m₁) :
    host.Became mode m m₁ (addContainers (unconnected network cs))
      (∃ c ∈ cs, c ∉ network.containers) := by
  induction cs generalizing m with
  | nil =>
      obtain rfl := Except.ok.inj hok
      have hnone : unconnected network [] = ∅ := by simp [unconnected]
      rw [hnone, addContainers_empty]
      simpa using became_refl mode m
  | cons c rest ih =>
      obtain ⟨mid, hfirst, hrest⟩ := bind_eq_ok_iff.mp hok
      have hone := became_connect hexisting hfirst
      have hboth := hone.trans (ih (hone.existing.trans hexisting) hrest)
      have hset : unconnected network (c :: rest) =
          unconnected network [c] ∪ unconnected network rest := by
        ext x
        simp [unconnected, or_and_right]
      rw [hset, ← addContainers_comp]
      simpa using hboth

/-! ## Replacing and creating -/

theorem view_some {network : Network} {s : σ}
    (hnets : host.nets s t.networkName = some network) :
    host.view s t.networkName = some network.view := by
  rw [view, hnets, Option.map_some]

theorem nets_eq_none_iff {s : σ} :
    host.nets s t.networkName = none ↔ host.view s t.networkName = none := by
  rw [view, Option.map_eq_none_iff]

theorem getExistingNetwork_eq (s : σ) :
    getExistingNetwork host.toDocker t s = host.nets s t.networkName := by
  unfold getExistingNetwork
  rw [host.byName_eq, host.byId_eq]
  cases host.nets s t.networkName <;> rfl

theorem became_removeNetwork {network : Network}
    (hexisting : m.existing = some network)
    (hnets : host.nets m.server t.networkName = some network)
    (hok : m.removeNetwork host.toDocker mode t = .ok m₁) :
    host.Became mode m m₁ (fun _ => none) True := by
  unfold Manager.removeNetwork at hok
  rw [hexisting] at hok
  obtain ⟨mid, hall, hok⟩ := bind_eq_ok_iff.mp hok
  obtain ⟨inspected, hinspect, hall⟩ := bind_eq_ok_iff.mp hall
  rw [host.inspect_eq _ _ hnets] at hinspect
  obtain rfl := Except.ok.inj hinspect
  obtain ⟨server, hcall, hok⟩ := bind_eq_ok_iff.mp hok
  obtain rfl := Except.ok.inj hok
  have hdropped := became_disconnectAll hall
  have hremoved : host.Became mode mid (mid.act server
      ("Removed network " ++ t.networkName)) (fun _ => none) True :=
    became_call hcall host.removed
  simpa [Function.comp_def] using hdropped.trans hremoved

/-- What a replaced network leaves: none, whether there was one or not. -/
theorem replace_of_replaces (hreal : mode.checkMode = false)
    (hexisting : m.existing = host.nets m.server t.networkName)
    (hreplaces : m.replaces t = true)
    (hok : m.replace host.toDocker mode t = .ok m₁) :
    host.view m₁.server =
        (host.view m.server).within t.networkName (fun _ => none) ∧
      m₁.existing = none ∧ m₁.connected = m.connected := by
  unfold Manager.replace at hok
  rw [if_pos hreplaces] at hok
  obtain ⟨mid, hremove, hok⟩ := bind_eq_ok_iff.mp hok
  obtain rfl := Except.ok.inj hok
  cases hnets : host.nets m.server t.networkName with
  | none =>
      unfold Manager.removeNetwork at hremove
      rw [hexisting, hnets] at hremove
      obtain rfl := Except.ok.inj hremove
      refine ⟨?_, rfl, rfl⟩
      unfold HostView.within
      rw [← nets_eq_none_iff.mp hnets]
      exact (Function.update_eq_self _ _).symm
  | some network =>
      have hbecame := became_removeNetwork (hexisting.trans hnets) hnets
        hremove
      exact ⟨hbecame.view hreal, rfl, hbecame.connected⟩

theorem createNetwork_of_none (hreal : mode.checkMode = false)
    (hexisting : m.existing = none)
    (hnets : host.nets m.server t.networkName = none)
    (hok : m.createNetwork host.toDocker mode t = .ok m₁) :
    ∃ args, createArgs host.toDocker t = .ok args ∧
      host.view m₁.server = (host.view m.server).within t.networkName
        (fun _ => some (host.reported args, ∅)) ∧
      m₁.existing = some ⟨host.reported args, []⟩ ∧
      m₁.connected = m.connected ∧ m₁.changed = true := by
  unfold Manager.createNetwork at hok
  rw [hexisting] at hok
  obtain ⟨args, hargs, hok⟩ := bind_eq_ok_iff.mp hok
  rw [hreal] at hok
  obtain ⟨⟨network, server⟩, hcreate, hok⟩ := bind_eq_ok_iff.mp hok
  obtain ⟨⟨id, server'⟩, hcall, hcreate⟩ := bind_eq_ok_iff.mp hcreate
  obtain ⟨inspected, hinspect, hcreate⟩ := bind_eq_ok_iff.mp hcreate
  obtain ⟨hreport, hview⟩ := host.created hcall hnets
  rw [hreport] at hinspect
  obtain rfl := Except.ok.inj hinspect
  rw [Except.ok.injEq, Prod.mk.injEq] at hcreate
  obtain ⟨rfl, rfl⟩ := hcreate
  obtain rfl := Except.ok.inj hok
  exact ⟨args, hargs, hview, rfl, rfl, rfl⟩

end Steps

end Host

/-! ## What a task is for -/

section Goal

variable (t : Task) (before : Option Network)

/-- The network that is there and is not to be replaced. -/
def Task.keeps : Option Network :=
  before.filter fun network =>
    !t.force && differences t network.config = []

/-- The containers of the list, or of the network where the list is empty. -/
def Task.listed : List String :=
  match t.connected, before with
  | [], some network => network.containers
  | connected, _ => connected

/-- The network after a run that succeeds. -/
inductive Task.Meets {σ : Type} (host : Host t.networkName σ) :
    NetView → Prop where
  | kept {network : Network} (hkeeps : t.keeps before = some network) :
      Meets host (network.config,
        {c | c ∈ t.listed before ∨ t.appends ∧ c ∈ network.containers})
  | created {args : CreateArgs} (hkeeps : t.keeps before = none)
      (hargs : createArgs host.toDocker t = .ok args) :
      Meets host (host.reported args, {c | c ∈ t.listed before})

end Goal

namespace Host

section Present

variable {σ : Type} {mode : Mode} {t : Task} {host : Host t.networkName σ}
  {m m₁ : Manager σ}

theorem keeps_eq_some_iff {before : Option Network} {network : Network} :
    t.keeps before = some network ↔ before = some network ∧
      t.force = false ∧ differences t network.config = [] := by
  simp [Task.keeps, Option.filter_eq_some_iff]

theorem init_eq (s : σ) : Manager.init host.toDocker t s = {
    server := s
    existing := host.nets s t.networkName
    connected := t.listed (host.nets s t.networkName)
    changed := false
    actions := [] } := by
  unfold Manager.init
  rw [getExistingNetwork_eq]
  rfl

/-- Connecting what is missing and disconnecting what is not listed. -/
def reconcile (t : Task) (network : Network) (listed : List String) :
    Option NetView → Option NetView :=
  if t.appends then addContainers (unconnected network listed)
  else dropContainers {c | c ∈ network.containers ∧ c ∉ listed} ∘
    addContainers (unconnected network listed)

theorem became_reconcile {network : Network}
    (hexisting : m.existing = some network) {mid : Manager σ}
    (hconnect : m.connectContainers host.toDocker mode t = .ok mid)
    (hdrop : mid.disconnectUnlisted host.toDocker mode t = .ok m₁) :
    host.Became mode m m₁ (reconcile t network m.connected)
      ((∃ c ∈ m.connected, c ∉ network.containers) ∨
        t.appends = false ∧ ∃ c ∈ network.containers, c ∉ m.connected) := by
  have hadded := became_connectAll hexisting hconnect
  unfold Manager.disconnectUnlisted at hdrop
  unfold reconcile
  cases happends : t.appends with
  | true =>
      rw [happends] at hdrop
      obtain rfl := Except.ok.inj hdrop
      simpa using hadded
  | false =>
      rw [happends] at hdrop
      unfold Manager.disconnectMissing at hdrop
      rw [hadded.existing, hexisting] at hdrop
      have hdropped := became_disconnectAll hdrop
      have hset : {c | c ∈ network.containers.filter (· ∉ mid.connected)} =
          {c | c ∈ network.containers ∧ c ∉ m.connected} := by
        ext c
        simp [hadded.connected]
      have hany : network.containers.filter (· ∉ mid.connected) ≠ [] ↔
          ∃ c ∈ network.containers, c ∉ m.connected := by
        simp [hadded.connected]
      rw [hset] at hdropped
      have hboth := hadded.trans hdropped
      rw [hany] at hboth
      simpa using hboth

theorem reconcile_kept {network : Network} {listed : List String} :
    reconcile t network listed (some network.view) =
      some (network.config,
        {c | c ∈ listed ∨ t.appends ∧ c ∈ network.containers}) := by
  unfold reconcile
  cases t.appends with
  | true =>
      simp only [if_true, addContainers, Option.map_some, Network.view,
        unconnected, Option.some.injEq, Prod.mk.injEq, true_and]
      ext c
      simp only [Set.mem_union, Set.mem_ofPred_eq]
      tauto
  | false =>
      simp only [Bool.false_eq_true, if_false, Function.comp_apply,
        addContainers, dropContainers, Option.map_some, Network.view,
        unconnected, Option.some.injEq, Prod.mk.injEq, true_and, false_and,
        or_false]
      ext c
      simp only [Set.mem_sdiff, Set.mem_union, Set.mem_ofPred_eq]
      tauto

theorem reconcile_created {config : NetConfig} {listed : List String} :
    reconcile t ⟨config, []⟩ listed (some (config, ∅)) =
      some (config, {c | c ∈ listed}) := by
  have hkept : reconcile t ⟨config, []⟩ listed
      (some (Network.view ⟨config, []⟩)) = _ := reconcile_kept
  simp only [Network.view, List.not_mem_nil, and_false, or_false] at hkept
  exact hkept

/-- What `replace` leaves where the network is not kept. -/
theorem replace_of_not_kept (hreal : mode.checkMode = false)
    (hexisting : m.existing = host.nets m.server t.networkName)
    (hkeeps : t.keeps m.existing = none)
    (hok : m.replace host.toDocker mode t = .ok m₁) :
    host.view m₁.server =
        (host.view m.server).within t.networkName (fun _ => none) ∧
      m₁.existing = none ∧ m₁.connected = m.connected := by
  cases hreplaces : m.replaces t with
  | true => exact replace_of_replaces hreal hexisting hreplaces hok
  | false =>
      cases hnet : m.existing with
      | none =>
          unfold Manager.replace at hok
          rw [hreplaces] at hok
          obtain rfl := Except.ok.inj hok
          refine ⟨?_, hnet, rfl⟩
          unfold HostView.within
          rw [← nets_eq_none_iff.mp (hexisting.symm.trans hnet)]
          exact (Function.update_eq_self _ _).symm
      | some network =>
          -- then nothing differs, and the network is kept
          rw [hnet] at hkeeps
          have hkept : t.keeps (some network) = some network := by
            rw [keeps_eq_some_iff]
            simpa [Manager.replaces, Manager.differences, hnet] using hreplaces
          rw [hkept] at hkeeps
          contradiction

theorem replace_of_kept (docker : Docker σ) (mode : Mode)
    {network : Network} (hkeeps : t.keeps m.existing = some network) :
    m.replace docker mode t = .ok m ∧ m.existing = some network := by
  obtain ⟨hexisting, hforce, hsame⟩ := keeps_eq_some_iff.mp hkeeps
  constructor
  · unfold Manager.replace Manager.replaces Manager.differences
    rw [hexisting, hforce]
    simp [hsame]
  · exact hexisting

theorem kept_ne_iff {network : Network} {listed : List String} :
    {c | c ∈ listed ∨ t.appends ∧ c ∈ network.containers} ≠
        {c | c ∈ network.containers} ↔
      (∃ c ∈ listed, c ∉ network.containers) ∨
        t.appends = false ∧ ∃ c ∈ network.containers, c ∉ listed := by
  rw [ne_eq, Set.ext_iff, not_forall]
  constructor
  · rintro ⟨c, hc⟩
    simp only [Set.mem_ofPred_eq] at hc
    by_cases hmem : c ∈ network.containers
    · right
      cases happends : t.appends with
      | true => simp [happends, hmem] at hc
      | false => exact ⟨rfl, c, hmem, by simpa [happends, hmem] using hc⟩
    · left
      exact ⟨c, by simpa [hmem] using hc, hmem⟩
  · rintro (⟨c, hlisted, hmem⟩ | ⟨happends, c, hmem, hlisted⟩)
    · exact ⟨c, by simp [hlisted, hmem]⟩
    · exact ⟨c, by simp [happends, hlisted, hmem]⟩

/-- A run in state `present` that succeeds. -/
theorem present_spec (hreal : mode.checkMode = false) {s : σ}
    {results : Results σ}
    (hok : present host.toDocker mode t (Manager.init host.toDocker t s) =
      .ok results) :
    let before := host.nets s t.networkName
    ∃ net, t.Meets before host net ∧
      host.view results.server =
        (host.view s).within t.networkName (fun _ => some net) ∧
      (results.changed = true ↔ ∀ network, t.keeps before = some network →
        net.2 ≠ {c | c ∈ network.containers}) ∧
      results.facts = some (host.nets results.server t.networkName) := by
  intro before
  rw [init_eq] at hok
  obtain ⟨kept, hreplace, hok⟩ := bind_eq_ok_iff.mp hok
  obtain ⟨made, hcreate, hok⟩ := bind_eq_ok_iff.mp hok
  obtain ⟨mid, hconnect, hok⟩ := bind_eq_ok_iff.mp hok
  obtain ⟨last, hdrop, hok⟩ := bind_eq_ok_iff.mp hok
  obtain rfl := Except.ok.inj hok
  cases hkeeps : t.keeps before with
  | some network =>
      obtain ⟨hsame, hexisting⟩ :
          Manager.replace host.toDocker mode t
              ⟨s, before, t.listed before, false, []⟩ = .ok _ ∧ _ :=
        replace_of_kept host.toDocker mode hkeeps
      rw [hsame] at hreplace
      obtain rfl := Except.ok.inj hreplace
      unfold Manager.createNetwork at hcreate
      rw [hexisting] at hcreate
      obtain rfl := Except.ok.inj hcreate
      have hbecame := became_reconcile hexisting hconnect hdrop
      refine ⟨_, .kept hkeeps, ?_, ?_, by rw [getExistingNetwork_eq]⟩
      · rw [hbecame.view hreal]
        apply HostView.within_congr
        rw [view_some hexisting]
        exact reconcile_kept
      · rw [hbecame.changed]
        constructor
        · rintro (hfalse | hacted) other hother
          · contradiction
          · obtain rfl := Option.some.inj hother
            exact kept_ne_iff.mpr hacted
        · intro hall
          exact Or.inr (kept_ne_iff.mp (hall network rfl))
  | none =>
      obtain ⟨hgone, hnone, hlisted⟩ := replace_of_not_kept hreal rfl hkeeps
        hreplace
      have hnets : host.nets kept.server t.networkName = none := by
        rw [nets_eq_none_iff, hgone, HostView.within_self]
      obtain ⟨args, hargs, hmade, hexisting, hconnected, hchanged⟩ :=
        createNetwork_of_none hreal hnone hnets hcreate
      have hbecame := became_reconcile hexisting hconnect hdrop
      refine ⟨_, .created hkeeps hargs, ?_, ?_,
        by rw [getExistingNetwork_eq]⟩
      · rw [hbecame.view hreal, hmade, hgone, HostView.within_within,
          HostView.within_within, hconnected, hlisted]
        apply HostView.within_congr
        exact reconcile_created
      · simp [hbecame.changed, hchanged]

/-! ## Running the task again -/

theorem nets_of_view {s : σ} {net : NetView}
    (hview : host.view s t.networkName = some net) :
    ∃ network, host.nets s t.networkName = some network ∧
      network.config = net.1 ∧ {c | c ∈ network.containers} = net.2 := by
  obtain ⟨network, hnets, hnet⟩ := Option.map_eq_some_iff.mp hview
  exact ⟨network, hnets, congrArg Prod.fst hnet, congrArg Prod.snd hnet⟩

/-- After a run the task lists nothing that is missing, and unless it appends
nothing that is not listed is left. -/
theorem Meets.listed {before : Option Network} {net : NetView}
    (hmeets : t.Meets before host net) {network : Network}
    (hcontainers : {c | c ∈ network.containers} = net.2) :
    (∀ c ∈ t.listed (some network), c ∈ network.containers) ∧
      (t.appends = false →
        ∀ c ∈ network.containers, c ∈ t.listed (some network)) := by
  have hmem : ∀ c, c ∈ network.containers ↔ c ∈ net.2 := by
    intro c
    rw [← hcontainers]
    rfl
  cases hlist : t.connected with
  | nil =>
      have hsame : t.listed (some network) = network.containers := by
        simp [Task.listed, hlist]
      rw [hsame]
      exact ⟨fun c hc => hc, fun _ c hc => hc⟩
  | cons first rest =>
      have hsame : ∀ before, t.listed before = first :: rest := by
        intro before
        simp [Task.listed, hlist]
      rw [hsame]
      cases hmeets with
      | kept hkeeps =>
          simp only [hsame, Set.mem_ofPred_eq] at hmem
          constructor
          · intro c hc
            exact (hmem c).mpr (Or.inl hc)
          · intro happends c hc
            rcases (hmem c).mp hc with hc | ⟨hyes, -⟩
            · exact hc
            · rw [happends] at hyes
              contradiction
      | created hkeeps hargs =>
          simp only [hsame, Set.mem_ofPred_eq] at hmem
          constructor
          · intro c hc
            exact (hmem c).mpr hc
          · intro _ c hc
            exact (hmem c).mp hc

theorem connectAll_of_connected (docker : Docker σ) (mode : Mode)
    {network : Network} (hexisting : m.existing = some network)
    {cs : List String} (hcs : ∀ c ∈ cs, c ∈ network.containers) :
    runAll (Manager.connectContainer docker mode t) m cs = .ok m := by
  induction cs with
  | nil => rfl
  | cons c rest ih =>
      have hstep : m.connectContainer docker mode t c = .ok m := by
        unfold Manager.connectContainer containerNamesInNetwork
        rw [hexisting]
        dsimp only [ok_bind]
        rw [if_pos (hcs c List.mem_cons_self)]
      rw [runAll, hstep]
      exact ih fun x hx => hcs x (List.mem_cons_of_mem c hx)

/-- A network that is kept and has the listed containers is left alone. -/
theorem present_of_settled (docker : Docker σ) (mode : Mode)
    {network : Network} (hkeeps : t.keeps m.existing = some network)
    (hmissing : ∀ c ∈ m.connected, c ∈ network.containers)
    (hextra : t.appends = false →
      ∀ c ∈ network.containers, c ∈ m.connected) :
    ∃ results, present docker mode t m = .ok results ∧
      results.changed = m.changed ∧ results.server = m.server := by
  obtain ⟨hreplace, hexisting⟩ := replace_of_kept docker mode hkeeps
  have hcreate : m.createNetwork docker mode t = .ok m := by
    unfold Manager.createNetwork
    rw [hexisting]
  have hconnect : m.connectContainers docker mode t = .ok m :=
    connectAll_of_connected docker mode hexisting hmissing
  have hdrop : m.disconnectUnlisted docker mode t = .ok m := by
    unfold Manager.disconnectUnlisted
    cases happends : t.appends with
    | true => rfl
    | false =>
        have hnone : network.containers.filter (· ∉ m.connected) = [] := by
          simpa using hextra happends
        unfold Manager.disconnectMissing
        rw [hexisting]
        dsimp only
        rw [hnone]
        rfl
  unfold present
  rw [hreplace, ok_bind, hcreate, ok_bind, hconnect, ok_bind, hdrop, ok_bind]
  exact ⟨_, rfl, rfl, rfl⟩

end Present

end Host

end FreeipaProv.DockerNetwork
