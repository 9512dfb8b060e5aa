import FreeipaProv.Lib.Derived
import FreeipaProv.Openssl

/-!
# Keys and requests over whole runs

A request is made from the key that is there at the time, and both files are
kept once they are there.
-/

namespace FreeipaProv.Openssl

open Fallible Derived

variable {κ ρ σ φ ι π : Type} {sys : System κ ρ σ}

/-! ## One task -/

section OneTask

variable {fm : FileModule φ σ} {s : σ} {out : Results φ σ}

theorem FileModule.main_present (hstate : fm.state = .present)
    (hmain : fm.main sys false s = .ok out) :
    ∃ made different, fm.writeIfNeeded sys s = .ok made ∧
      fm.inspect made = .ok out.fingerprint ∧
      sys.setAttributes made fm.path fm.fileArgs = .ok (different, out.system) ∧
      out.changed = (fm.needsFile sys s || different) := by
  unfold FileModule.main at hmain
  rw [hstate] at hmain
  split_ifs at hmain with hdir hcheck
  · contradiction
  · obtain ⟨made, hmade, hrest⟩ := bind_eq_ok_iff.mp hmain
    obtain ⟨fingerprint, hinspect, hrest⟩ := bind_eq_ok_iff.mp hrest
    obtain ⟨⟨different, left⟩, hset, hout⟩ := bind_eq_ok_iff.mp hrest
    cases hfingerprint : fm.inspect made with
    | error failure =>
        rw [hfingerprint] at hinspect
        cases hinspect
    | ok value =>
        rw [hfingerprint] at hinspect
        cases hinspect
        cases hout
        exact ⟨made, different, hmade, hfingerprint, hset, rfl⟩

theorem FileModule.main_absent (hstate : fm.state = .absent)
    (hmain : fm.main sys false s = .ok out) :
    sys.removeFile s fm.path = .ok out.system ∧ out.changed = true ∨
      sys.removeFile s fm.path = .error .enoent ∧ out.system = s ∧
        out.changed = false := by
  unfold FileModule.main at hmain
  rw [hstate] at hmain
  split_ifs at hmain with hdir hcheck
  · contradiction
  · change fm.remove sys s = .ok out at hmain
    unfold FileModule.remove at hmain
    cases hremove : sys.removeFile s fm.path with
    | ok left =>
        rw [hremove] at hmain
        cases hmain
        exact Or.inl ⟨rfl, rfl⟩
    | error err =>
        rw [hremove] at hmain
        cases err with
        | enoent =>
            cases hmain
            exact Or.inr ⟨rfl, rfl, rfl⟩
        | other msg => contradiction

end OneTask

/-! ## Files, keys and requests -/

inductive Node where
  | directory
  | file (text : String)

/-- What the two modules rely on, where no two paths come to name one file
during a run.  A key that is generated is a new one. -/
structure FileSystem (sys : System κ ρ σ) (ι π : Type) [DecidableEq ι] where
  resolve : String → ι
  node : σ → ι → Option Node
  publicKey : κ → π
  /-- the public key in the text of a request -/
  requestKey : String → Option π
  pathExists : ∀ s path, sys.pathExists s path = (node s (resolve path)).isSome
  readFile : ∀ {s path text}, sys.readFile s path = .ok text →
    node s (resolve path) = some (.file text)
  writeFile : ∀ {s path mode text s'}, sys.writeFile s path mode text = .ok s' →
    node s' = Function.update (node s) (resolve path) (some (.file text))
  removeFile : ∀ {s path s'}, sys.removeFile s path = .ok s' →
    node s' = Function.update (node s) (resolve path) none
  enoent : ∀ {s path}, sys.removeFile s path = .error .enoent →
    node s (resolve path) = none
  setAttributes : ∀ {s path args different s'},
    sys.setAttributes s path args = .ok (different, s') → node s' = node s
  generateKey : ∀ {s keyType size key s'},
    sys.generateKey s keyType size = .ok (key, s') → node s' = node s
  loadPrivatekey : ∀ key, sys.loadPrivatekey (sys.dumpPrivatekey key) = .ok key
  signRequest : ∀ {req key digest signed},
    sys.signRequest req key digest = .ok signed →
      requestKey (sys.dumpRequest signed) = some (publicKey key)
  fresh : ∀ {s keyType size key s'},
    sys.generateKey s keyType size = .ok (key, s') →
      ∀ i text, node s i = some (.file text) →
        requestKey text ≠ some (publicKey key)

section Files

variable [DecidableEq ι] (fs : FileSystem sys ι π)

namespace FileSystem

/-- The key in a file. -/
def keyAt (s : σ) (path : String) (key : κ) : Prop :=
  ∃ text, fs.node s (fs.resolve path) = some (.file text) ∧
    sys.loadPrivatekey text = .ok key

/-- The public key in a request in a file. -/
def requestAt (s : σ) (path : String) (key : π) : Prop :=
  ∃ text, fs.node s (fs.resolve path) = some (.file text) ∧
    fs.requestKey text = some key

/-- The request is of the key. -/
def Matches (keyPath csrPath : String) (s : σ) : Prop :=
  ∃ key, fs.keyAt s keyPath key ∧ fs.requestAt s csrPath (fs.publicKey key)

end FileSystem

variable {fs}

theorem FileSystem.exists_node (fs : FileSystem sys ι π) {s : σ} {path : String}
    (hexists : sys.pathExists s path = true) :
    ∃ node, fs.node s (fs.resolve path) = some node := by
  rw [fs.pathExists] at hexists
  exact Option.isSome_iff_exists.mp hexists

theorem FileSystem.node_removed {fm : FileModule φ σ} {s : σ}
    {out : Results φ σ} (hstate : fm.state = .absent)
    (hmain : fm.main sys false s = .ok out) :
    fs.node out.system =
      Function.update (fs.node s) (fs.resolve fm.path) none := by
  obtain ⟨hremove, -⟩ | ⟨hremove, hleft, -⟩ :=
    FileModule.main_absent hstate hmain
  · exact fs.removeFile hremove
  · rw [hleft, ← fs.enoent hremove, Function.update_eq_self]

/-- A file that is kept stays as it is, with all the others. -/
theorem FileSystem.node_kept {fm : FileModule φ σ} {s : σ}
    {out : Results φ σ} (hstate : fm.state = .present)
    (hkept : fm.needsFile sys s = false)
    (hmain : fm.main sys false s = .ok out) :
    fs.node out.system = fs.node s := by
  obtain ⟨made, different, hmade, -, hset, -⟩ :=
    FileModule.main_present hstate hmain
  rw [FileModule.writeIfNeeded, hkept] at hmade
  have hsame : s = made := Except.ok.inj hmade
  rw [fs.setAttributes hset, hsame]

theorem KeyParams.writeKey_eq_ok {p : KeyParams} {s s' : σ}
    (hwrite : p.writeKey sys s = .ok s') :
    ∃ key made, sys.generateKey s p.keyType p.size = .ok (key, made) ∧
      sys.writeFile made p.path (some p.mode) (sys.dumpPrivatekey key) =
        .ok s' := by
  unfold KeyParams.writeKey at hwrite
  cases hgenerate : sys.generateKey s p.keyType p.size with
  | error failure =>
      rw [hgenerate] at hwrite
      cases hwrite
  | ok result =>
      obtain ⟨key, made⟩ := result
      rw [hgenerate] at hwrite
      refine ⟨key, made, rfl, ?_⟩
      dsimp only at hwrite
      cases hfile : sys.writeFile made p.path (some p.mode)
          (sys.dumpPrivatekey key) with
      | ok left =>
          rw [hfile] at hwrite
          cases hwrite
          rfl
      | error err =>
          rw [hfile] at hwrite
          cases err <;> cases hwrite

theorem CsrParams.readKey_eq_ok (fs : FileSystem sys ι π) {p : CsrParams}
    {s : σ} {key : κ}
    (hread : p.readKey sys s = .ok key) :
    ∃ path, p.privatekeyPath = some path ∧ fs.keyAt s path key := by
  obtain ⟨path, hpath, hread⟩ := bind_eq_ok_iff.mp hread
  obtain ⟨text, htext, hload⟩ := bind_eq_ok_iff.mp hread
  unfold CsrParams.keyPath at hpath
  cases hgiven : p.privatekeyPath with
  | none =>
      rw [hgiven] at hpath
      cases hpath
  | some given =>
      rw [hgiven] at hpath
      cases hpath
      exact ⟨path, rfl, text, fs.readFile htext, hload⟩

theorem CsrParams.request_eq_ok (fs : FileSystem sys ι π) {p : CsrParams}
    {s : σ} {signed : ρ}
    (hrequest : p.request sys s = .ok signed) :
    ∃ key, p.readKey sys s = .ok key ∧
      fs.requestKey (sys.dumpRequest signed) = some (fs.publicKey key) := by
  obtain ⟨req, -, hrest⟩ := bind_eq_ok_iff.mp hrequest
  obtain ⟨altName, -, hrest⟩ := bind_eq_ok_iff.mp hrest
  obtain ⟨named, -, hrest⟩ := bind_eq_ok_iff.mp hrest
  obtain ⟨key, hread, hsign⟩ := bind_eq_ok_iff.mp hrest
  exact ⟨key, hread, fs.signRequest hsign⟩

theorem CsrParams.writeCsr_eq_ok {p : CsrParams} {s s' : σ}
    (hwrite : p.writeCsr sys s = .ok s') :
    ∃ signed, p.request sys s = .ok signed ∧
      sys.writeFile s p.path none (sys.dumpRequest signed) = .ok s' := by
  unfold CsrParams.writeCsr at hwrite
  cases hrequest : p.request sys s with
  | error failure =>
      rw [hrequest] at hwrite
      cases hwrite
  | ok signed =>
      rw [hrequest] at hwrite
      refine ⟨signed, rfl, ?_⟩
      dsimp only at hwrite
      cases hfile : sys.writeFile s p.path none (sys.dumpRequest signed) with
      | ok left =>
          rw [hfile] at hwrite
          cases hwrite
          rfl
      | error err =>
          rw [hfile] at hwrite
          cases err <;> cases hwrite

/-- What a new key leaves. -/
theorem KeyParams.made (fs : FileSystem sys ι π) {p : KeyParams} {s : σ}
    {out : Results (List (String × String)) σ} (hstate : p.state = .present)
    (hneeds : (p.privateKey sys).needsFile sys s = true)
    (hmain : (p.privateKey sys).main sys false s = .ok out) :
    ∃ key made, sys.generateKey s p.keyType p.size = .ok (key, made) ∧
      fs.node out.system = Function.update (fs.node s) (fs.resolve p.path)
        (some (.file (sys.dumpPrivatekey key))) := by
  obtain ⟨left, different, hmade, -, hset, -⟩ :=
    FileModule.main_present hstate hmain
  rw [FileModule.writeIfNeeded, hneeds] at hmade
  obtain ⟨key, made, hgenerate, hfile⟩ := KeyParams.writeKey_eq_ok hmade
  refine ⟨key, made, hgenerate, ?_⟩
  calc
    fs.node out.system = fs.node left := fs.setAttributes hset
    _ = Function.update (fs.node made) (fs.resolve p.path)
          (some (.file (sys.dumpPrivatekey key))) := fs.writeFile hfile
    _ = Function.update (fs.node s) (fs.resolve p.path)
          (some (.file (sys.dumpPrivatekey key))) := by
        rw [fs.generateKey hgenerate]

/-- What a new request leaves. -/
theorem CsrParams.made (fs : FileSystem sys ι π) {p : CsrParams} {s : σ}
    {out : Results Unit σ}
    (hstate : p.state = .present)
    (hneeds : (p.certificateSigningRequest sys).needsFile sys s = true)
    (hmain : (p.certificateSigningRequest sys).main sys false s = .ok out) :
    ∃ key text, p.readKey sys s = .ok key ∧
      fs.requestKey text = some (fs.publicKey key) ∧
      fs.node out.system = Function.update (fs.node s) (fs.resolve p.path)
        (some (.file text)) := by
  obtain ⟨left, different, hmade, -, hset, -⟩ :=
    FileModule.main_present hstate hmain
  rw [FileModule.writeIfNeeded, hneeds] at hmade
  obtain ⟨signed, hrequest, hfile⟩ := CsrParams.writeCsr_eq_ok hmade
  obtain ⟨key, hread, hkey⟩ := CsrParams.request_eq_ok fs hrequest
  refine ⟨key, sys.dumpRequest signed, hread, hkey, ?_⟩
  calc
    fs.node out.system = fs.node left := fs.setAttributes hset
    _ = Function.update (fs.node s) (fs.resolve p.path)
          (some (.file (sys.dumpRequest signed))) := fs.writeFile hfile

end Files

/-! ## Files in memory -/

/-- Files with a bound on the lengths of their texts. -/
structure Memory where
  files : String → Option String
  bound : ℕ
  length_le : ∀ path text, files path = some text → text.length ≤ bound

namespace Memory

def put (m : Memory) (path text : String) : Memory where
  files := Function.update m.files path (some text)
  bound := max m.bound text.length
  length_le := by
    intro other found hfound
    by_cases hother : other = path
    · rw [hother, Function.update_self] at hfound
      cases hfound
      exact le_max_right _ _
    · rw [Function.update_of_ne hother] at hfound
      exact le_max_of_le_left (m.length_le other found hfound)

def drop (m : Memory) (path : String) : Memory where
  files := Function.update m.files path none
  bound := m.bound
  length_le := by
    intro other found hfound
    by_cases hother : other = path
    · rw [hother, Function.update_self] at hfound
      cases hfound
    · rw [Function.update_of_ne hother] at hfound
      exact m.length_le other found hfound

/-- The text of a key or a request with the number. -/
def numbered (n : ℕ) : String :=
  String.ofList (List.replicate n 'M')

theorem length_numbered (n : ℕ) : (numbered n).length = n := by
  rw [numbered, String.length_ofList, List.length_replicate]

end Memory

/-- Keys are numbers, each new one larger than all in the files. -/
def memorySystem : System ℕ ℕ Memory where
  pathExists m path := (m.files path).isSome
  isDir _ path := path = "/certs"
  readFile m path :=
    match m.files path with
    | some text => .ok text
    | none => .error (.failJson "No such file or directory")
  writeFile m path _ text := .ok (m.put path text)
  removeFile m path :=
    match m.files path with
    | some _ => .ok (m.drop path)
    | none => .error .enoent
  setAttributes m _ _ := .ok (false, m)
  generateKey m _ _ := .ok (m.bound + 1, m)
  dumpPrivatekey := Memory.numbered
  loadPrivatekey text := .ok text.length
  publicDigests _ := none
  newRequest _ _ := .ok 0
  addSubjectAltName req _ := .ok req
  signRequest _ key _ := .ok key
  dumpRequest := Memory.numbered
  toNative _ := ""

def memoryFiles : FileSystem memorySystem String ℕ where
  resolve := id
  node m path := (m.files path).map Node.file
  publicKey := id
  requestKey text := some text.length
  pathExists _ _ := Option.isSome_map.symm
  readFile := by
    intro m path text hread
    cases hfile : m.files path with
    | none => simp [memorySystem, hfile] at hread
    | some found => simpa [memorySystem, hfile] using hread
  writeFile := by
    intro m path mode text m' hwrite
    cases hwrite
    funext other
    by_cases hother : other = path
    · simp [Memory.put, hother]
    · simp [Memory.put, hother]
  removeFile := by
    intro m path m' hremove
    have hdrop : m' = m.drop path := by
      cases hfile : m.files path with
      | none => simp [memorySystem, hfile] at hremove
      | some found => simpa [memorySystem, hfile, eq_comm] using hremove
    funext other
    by_cases hother : other = path
    · simp [hdrop, Memory.drop, hother]
    · simp [hdrop, Memory.drop, hother]
  enoent := by
    intro m path hremove
    cases hfile : m.files path with
    | none => simp [hfile]
    | some found => simp [memorySystem, hfile] at hremove
  setAttributes := by
    intro m path args different m' hset
    cases hset
    rfl
  generateKey := by
    intro m keyType size key m' hgenerate
    cases hgenerate
    rfl
  loadPrivatekey key := congrArg Except.ok (Memory.length_numbered key)
  signRequest := by
    intro req key digest signed hsign
    cases hsign
    exact congrArg some (Memory.length_numbered key)
  fresh := by
    intro m keyType size key m' hgenerate path text hfile hkey
    cases hgenerate
    obtain ⟨found, hfound, htext⟩ := Option.map_eq_some_iff.mp hfile
    cases htext
    have hle : text.length ≤ m.bound := m.length_le path text hfound
    have heq : text.length = m.bound + 1 := Option.some.inj hkey
    omega

/-- No files. -/
def noFiles : Memory := ⟨fun _ => none, 0, fun _ _ h => nomatch h⟩

/-- The request of a key that is lost. -/
def lostKey : Memory := noFiles.put "/certs/csr.pem" "MMM"

def clientKey : KeyParams where
  path := "/certs/key.pem"
  size := 2048

def clientCsr : CsrParams where
  path := "/certs/csr.pem"
  privatekeyPath := some "/certs/key.pem"
  commonName := some "alice"

/-! ## Check mode -/

section CheckMode

variable {fm : FileModule φ σ} {s : σ}

/-- Check mode leaves the system alone and never announces a change that the
task does not make.  Of the changes that the task makes it leaves out those of
the attributes of a file that is kept, and those of a path that names no file
and can be removed. -/
theorem announced_iff {announced real : Results φ σ}
    (henoent : sys.removeFile s fm.path = .error .enoent →
      sys.pathExists s fm.path = false)
    (hannounced : fm.main sys true s = .ok announced)
    (hreal : fm.main sys false s = .ok real) :
    announced.system = s ∧
      (announced.changed = true → real.changed = true) ∧
      (announced.changed = real.changed ↔
        match fm.state with
        | .present => fm.needsFile sys s = true ∨
            ∃ left, sys.setAttributes s fm.path fm.fileArgs = .ok (false, left)
        | .absent => sys.pathExists s fm.path = true ∨
            sys.removeFile s fm.path = .error .enoent) := by
  have hout : announced =
      ⟨fm.announces sys s, fm.blank, s⟩ := by
    unfold FileModule.main at hannounced
    split_ifs at hannounced with hdir hcheck
    · exact (Except.ok.inj hannounced).symm
    · exact absurd rfl hcheck
  cases hstate : fm.state with
  | present =>
      have hchanged : announced.changed = fm.needsFile sys s := by
        rw [hout]
        simp only [FileModule.announces, hstate, FileModule.needsFile,
          Bool.or_comm]
      obtain ⟨made, different, hmade, -, hset, hreal⟩ :=
        FileModule.main_present hstate hreal
      rw [hchanged, hreal]
      cases hneeds : fm.needsFile sys s with
      | true =>
          refine ⟨by rw [hout], fun _ => rfl, ?_⟩
          exact ⟨fun _ => Or.inl rfl, fun _ => rfl⟩
      | false =>
          have hkept : made = s := by
            rw [FileModule.writeIfNeeded, hneeds] at hmade
            exact (Except.ok.inj hmade).symm
          rw [hkept] at hset
          refine ⟨by rw [hout], fun h => absurd h Bool.false_ne_true, ?_⟩
          constructor
          · intro hsame
            rw [Bool.false_or] at hsame
            exact Or.inr ⟨real.system, by rw [hset, ← hsame]⟩
          · rintro (hneeded | ⟨left, hleft⟩)
            · exact absurd hneeded Bool.false_ne_true
            · rw [hset] at hleft
              cases hleft
              rfl
  | absent =>
      have hchanged : announced.changed = sys.pathExists s fm.path := by
        rw [hout]
        simp only [FileModule.announces, hstate]
      obtain ⟨hremove, hreal⟩ | ⟨hremove, -, hreal⟩ :=
        FileModule.main_absent hstate hreal
      · rw [hchanged, hreal, hremove]
        refine ⟨by rw [hout], fun _ => rfl, ?_⟩
        constructor
        · exact fun hexists => Or.inl hexists
        · rintro (hexists | hmissing)
          · exact hexists
          · cases hmissing
      · rw [hchanged, hreal, henoent hremove, hremove]
        refine ⟨by rw [hout], id, ?_⟩
        exact ⟨fun _ => Or.inr rfl, fun _ => rfl⟩

theorem announced_clientKey : ∃ announced real,
    (clientKey.privateKey memorySystem).main memorySystem true noFiles =
        .ok announced ∧
      (clientKey.privateKey memorySystem).main memorySystem false noFiles =
        .ok real ∧
      announced.changed = real.changed := by
  have hspec := @announced_iff _ _ _ _ memorySystem
    (clientKey.privateKey memorySystem) noFiles _ _ (fun _ => rfl) rfl rfl
  exact ⟨_, _, rfl, rfl, hspec.2.2.mpr (Or.inl rfl)⟩

end CheckMode

/-! ## Runs of both modules -/

/-- A task with one of the modules. -/
inductive Task where
  | key (p : KeyParams)
  | csr (p : CsrParams)

namespace Task

/-- The system after a task that succeeds. -/
def run (sys : System κ ρ σ) (s : σ) : Task → Attempt σ σ
  | .key p => ((p.privateKey sys).main sys false s).map Results.system
  | .csr p =>
      ((p.certificateSigningRequest sys).main sys false s).map Results.system

/-- The task is about the two files. -/
def On (keyPath csrPath : String) : Task → Prop
  | .key p => p.path = keyPath
  | .csr p => p.path = csrPath ∧ p.privatekeyPath = some keyPath

/-- What the task does to the two files. -/
def op : Task → Op
  | .key p =>
      match p.state with
      | .present => .makeSource p.force
      | .absent => .dropSource
  | .csr p =>
      match p.state with
      | .present => .makeDerived p.force
      | .absent => .dropDerived

end Task

section Runs

variable [DecidableEq ι] {fs : FileSystem sys ι π} {keyPath csrPath : String}
  {l : Link} {s s' : σ}

/-- What there is of the two files. -/
structure FileSystem.Tracks (fs : FileSystem sys ι π) (keyPath csrPath : String)
    (l : Link) (s : σ) : Prop where
  source : l.source = (fs.node s (fs.resolve keyPath)).isSome
  derived : l.derived = (fs.node s (fs.resolve csrPath)).isSome
  linked : l.linked = true ↔ fs.Matches keyPath csrPath s

theorem FileSystem.Matches.congr
    (hkey : fs.node s' (fs.resolve keyPath) = fs.node s (fs.resolve keyPath))
    (hcsr : fs.node s' (fs.resolve csrPath) = fs.node s (fs.resolve csrPath)) :
    fs.Matches keyPath csrPath s' ↔ fs.Matches keyPath csrPath s := by
  simp only [FileSystem.Matches, FileSystem.keyAt, FileSystem.requestAt, hkey,
    hcsr]

theorem FileSystem.Matches.nodes (hmatches : fs.Matches keyPath csrPath s) :
    (fs.node s (fs.resolve keyPath)).isSome = true ∧
      (fs.node s (fs.resolve csrPath)).isSome = true := by
  obtain ⟨key, ⟨keyText, hkey, -⟩, csrText, hcsr, -⟩ := hmatches
  rw [hkey, hcsr]
  exact ⟨rfl, rfl⟩

theorem FileSystem.needsFile_eq (fs : FileSystem sys ι π)
    (fm : FileModule φ σ) (s : σ) :
    fm.needsFile sys s =
      !((fs.node s (fs.resolve fm.path)).isSome && !fm.force) := by
  rw [FileModule.needsFile, fs.pathExists, Bool.not_and, Bool.not_not]

theorem FileSystem.Tracks.key_step (htracks : fs.Tracks keyPath csrPath l s)
    (hpaths : fs.resolve keyPath ≠ fs.resolve csrPath) {p : KeyParams}
    (hpath : p.path = keyPath) {out : Results (List (String × String)) σ}
    (hmain : (p.privateKey sys).main sys false s = .ok out) :
    fs.Tracks keyPath csrPath (l.step (Task.key p).op) out.system := by
  subst hpath
  have hneeds := fs.needsFile_eq (p.privateKey sys) s
  cases hstate : p.state with
  | present =>
      simp only [Task.op, hstate, Link.step]
      split_ifs with hkept
      · rw [htracks.source] at hkept
        have hnode : fs.node out.system = fs.node s :=
          FileSystem.node_kept hstate (by rw [hneeds]; exact hkept ▸ rfl) hmain
        exact ⟨by rw [hnode, htracks.source], by rw [hnode, htracks.derived],
          htracks.linked.trans (FileSystem.Matches.congr
            (congrFun hnode _) (congrFun hnode _)).symm⟩
      · rw [htracks.source, Bool.not_eq_true] at hkept
        obtain ⟨key, made, hgenerate, hnode⟩ :=
          KeyParams.made fs hstate (by rw [hneeds]; exact hkept ▸ rfl)
            hmain
        have hkeyNode : fs.node out.system (fs.resolve p.path) =
            some (.file (sys.dumpPrivatekey key)) := by
          rw [hnode, Function.update_self]
        have hcsrNode : fs.node out.system (fs.resolve csrPath) =
            fs.node s (fs.resolve csrPath) := by
          rw [hnode, Function.update_of_ne hpaths.symm]
        refine ⟨by rw [hkeyNode]; rfl, by rw [hcsrNode, htracks.derived], ?_⟩
        constructor
        · exact fun h => absurd h Bool.false_ne_true
        · rintro ⟨other, ⟨keyText, hkeyText, hload⟩, csrText, hcsrText, hof⟩
          rw [hkeyNode] at hkeyText
          cases hkeyText
          rw [fs.loadPrivatekey] at hload
          cases hload
          rw [hcsrNode] at hcsrText
          exact absurd hof (fs.fresh hgenerate _ csrText hcsrText)
  | absent =>
      have hnode : fs.node out.system =
          Function.update (fs.node s) (fs.resolve p.path) none :=
        FileSystem.node_removed hstate hmain
      have hkeyNode : fs.node out.system (fs.resolve p.path) = none := by
        rw [hnode, Function.update_self]
      simp only [Task.op, hstate, Link.step]
      refine ⟨by rw [hkeyNode]; rfl, ?_, ?_⟩
      · rw [hnode, Function.update_of_ne hpaths.symm, htracks.derived]
      · constructor
        · exact fun h => absurd h Bool.false_ne_true
        · intro hmatches
          have hsome := hmatches.nodes.1
          rw [hkeyNode] at hsome
          exact absurd hsome Bool.false_ne_true

theorem FileSystem.Tracks.csr_step (htracks : fs.Tracks keyPath csrPath l s)
    (hpaths : fs.resolve keyPath ≠ fs.resolve csrPath) {p : CsrParams}
    (hpath : p.path = csrPath) (hkeyPath : p.privatekeyPath = some keyPath)
    {out : Results Unit σ}
    (hmain : (p.certificateSigningRequest sys).main sys false s = .ok out) :
    fs.Tracks keyPath csrPath (l.step (Task.csr p).op) out.system := by
  subst hpath
  have hneeds := fs.needsFile_eq (p.certificateSigningRequest sys) s
  cases hstate : p.state with
  | present =>
      simp only [Task.op, hstate, Link.step]
      split_ifs with hkept
      · rw [htracks.derived] at hkept
        have hnode : fs.node out.system = fs.node s :=
          FileSystem.node_kept hstate (by rw [hneeds]; exact hkept ▸ rfl) hmain
        exact ⟨by rw [hnode, htracks.source], by rw [hnode, htracks.derived],
          htracks.linked.trans (FileSystem.Matches.congr
            (congrFun hnode _) (congrFun hnode _)).symm⟩
      · rw [htracks.derived, Bool.not_eq_true] at hkept
        obtain ⟨key, csrText, hread, hof, hnode⟩ :=
          CsrParams.made fs hstate (by rw [hneeds]; exact hkept ▸ rfl)
            hmain
        obtain ⟨path, hgiven, keyText, hkeyText, hload⟩ :=
          CsrParams.readKey_eq_ok fs hread
        rw [hkeyPath] at hgiven
        cases hgiven
        have hkeyNode : fs.node out.system (fs.resolve keyPath) =
            some (.file keyText) := by
          rw [hnode, Function.update_of_ne hpaths, hkeyText]
        have hcsrNode : fs.node out.system (fs.resolve p.path) =
            some (.file csrText) := by
          rw [hnode, Function.update_self]
        have hsource : l.source = true := by
          rw [htracks.source, hkeyText]
          rfl
        have hmatches : fs.Matches keyPath p.path out.system :=
          ⟨key, ⟨keyText, hkeyNode, hload⟩, csrText, hcsrNode, hof⟩
        refine ⟨by rw [hkeyNode, hsource]; rfl, by rw [hcsrNode]; rfl, ?_⟩
        exact ⟨fun _ => hmatches, fun _ => hsource⟩
  | absent =>
      have hnode : fs.node out.system =
          Function.update (fs.node s) (fs.resolve p.path) none :=
        FileSystem.node_removed hstate hmain
      have hcsrNode : fs.node out.system (fs.resolve p.path) = none := by
        rw [hnode, Function.update_self]
      simp only [Task.op, hstate, Link.step]
      refine ⟨?_, by rw [hcsrNode]; rfl, ?_⟩
      · rw [hnode, Function.update_of_ne hpaths, htracks.source]
      · constructor
        · exact fun h => absurd h Bool.false_ne_true
        · intro hmatches
          have hsome := hmatches.nodes.2
          rw [hcsrNode] at hsome
          exact absurd hsome Bool.false_ne_true

theorem FileSystem.Tracks.step (htracks : fs.Tracks keyPath csrPath l s)
    (hpaths : fs.resolve keyPath ≠ fs.resolve csrPath) {task : Task}
    (hon : task.On keyPath csrPath) (hrun : task.run sys s = .ok s') :
    fs.Tracks keyPath csrPath (l.step task.op) s' := by
  cases task with
  | key p =>
      obtain ⟨out, hmain, rfl⟩ := map_eq_ok_iff.mp hrun
      exact htracks.key_step hpaths hon hmain
  | csr p =>
      obtain ⟨out, hmain, rfl⟩ := map_eq_ok_iff.mp hrun
      exact htracks.csr_step hpaths hon.1 hon.2 hmain

theorem FileSystem.Tracks.run {tasks : List Task}
    (htracks : fs.Tracks keyPath csrPath l s)
    (hpaths : fs.resolve keyPath ≠ fs.resolve csrPath)
    (hon : ∀ task ∈ tasks, task.On keyPath csrPath)
    (hrun : runAll (Task.run sys) s tasks = .ok s') :
    fs.Tracks keyPath csrPath (l.run (tasks.map Task.op)) s' := by
  induction tasks generalizing l s with
  | nil =>
      cases hrun
      exact htracks
  | cons task rest ih =>
      obtain ⟨mid, hstep, hrest⟩ := bind_eq_ok_iff.mp hrun
      have hmid := htracks.step hpaths (hon task List.mem_cons_self) hstep
      rw [List.map_cons, Link.run_cons]
      exact ih hmid (fun next hnext => hon next (List.mem_cons_of_mem _ hnext))
        hrest

/-! ## What the tasks leave alone -/

namespace Task

/-- The task makes its file if there is none. -/
def Unforced : Task → Prop
  | .key p => p.state = .present ∧ p.force = false
  | .csr p => p.state = .present ∧ p.force = false

def path : Task → String
  | .key p => p.path
  | .csr p => p.path

end Task

theorem Task.On.resolve_path {task : Task} (hon : task.On keyPath csrPath) :
    task.path = keyPath ∨ task.path = csrPath := by
  cases task with
  | key p => exact Or.inl hon
  | csr p => exact Or.inr hon.1

/-- What a module changes is at its path. -/
theorem FileSystem.node_of_ne {fm : FileModule φ σ} {out : Results φ σ}
    (hmade : fm.state = .present → fm.needsFile sys s = true →
      ∃ made, fs.node out.system =
        Function.update (fs.node s) (fs.resolve fm.path) made)
    (hmain : fm.main sys false s = .ok out) {i : ι}
    (hi : i ≠ fs.resolve fm.path) : fs.node out.system i = fs.node s i := by
  cases hstate : fm.state with
  | present =>
      cases hneeds : fm.needsFile sys s with
      | true =>
          obtain ⟨made, hnode⟩ := hmade hstate hneeds
          rw [hnode, Function.update_of_ne hi]
      | false => rw [FileSystem.node_kept hstate hneeds hmain]
  | absent =>
      rw [FileSystem.node_removed hstate hmain, Function.update_of_ne hi]

theorem Task.node_of_ne {task : Task} (hrun : task.run sys s = .ok s') {i : ι}
    (hi : i ≠ fs.resolve task.path) : fs.node s' i = fs.node s i := by
  cases task with
  | key p =>
      obtain ⟨out, hmain, rfl⟩ := map_eq_ok_iff.mp hrun
      refine FileSystem.node_of_ne ?_ hmain hi
      intro hstate hneeds
      obtain ⟨key, made, -, hnode⟩ := KeyParams.made fs hstate hneeds hmain
      exact ⟨_, hnode⟩
  | csr p =>
      obtain ⟨out, hmain, rfl⟩ := map_eq_ok_iff.mp hrun
      refine FileSystem.node_of_ne ?_ hmain hi
      intro hstate hneeds
      obtain ⟨key, text, -, -, hnode⟩ := CsrParams.made fs hstate hneeds hmain
      exact ⟨_, hnode⟩

/-- A task that forces nothing keeps all that there is. -/
theorem Task.Unforced.node {task : Task} (hunforced : task.Unforced)
    (hrun : task.run sys s = .ok s') {i : ι} {x : Node}
    (hx : fs.node s i = some x) : fs.node s' i = some x := by
  by_cases hi : i = fs.resolve task.path
  · subst hi
    cases task with
    | key p =>
        obtain ⟨out, hmain, rfl⟩ := map_eq_ok_iff.mp hrun
        have hkept : (p.privateKey sys).needsFile sys s = false := by
          rw [fs.needsFile_eq]
          simp only [Task.path] at hx
          simp [KeyParams.privateKey, hx, hunforced.2]
        rw [FileSystem.node_kept hunforced.1 hkept hmain, hx]
    | csr p =>
        obtain ⟨out, hmain, rfl⟩ := map_eq_ok_iff.mp hrun
        have hkept :
            (p.certificateSigningRequest sys).needsFile sys s = false := by
          rw [fs.needsFile_eq]
          simp only [Task.path] at hx
          simp [CsrParams.certificateSigningRequest, hx, hunforced.2]
        rw [FileSystem.node_kept hunforced.1 hkept hmain, hx]
  · rw [Task.node_of_ne hrun hi, hx]

/-- A request stays as it is in a task that does not renew it. -/
theorem Task.request_kept (hpaths : fs.resolve keyPath ≠ fs.resolve csrPath)
    {task : Task} (hon : task.On keyPath csrPath) (hop : ¬ task.op.Renews)
    (hrun : task.run sys s = .ok s') {x : Node}
    (hx : fs.node s (fs.resolve csrPath) = some x) :
    fs.node s' (fs.resolve csrPath) = some x := by
  cases task with
  | key p =>
      have hpath : p.path = keyPath := hon
      have hne : fs.resolve csrPath ≠ fs.resolve (Task.key p).path := by
        rw [Task.path, hpath]
        exact hpaths.symm
      rw [Task.node_of_ne hrun hne, hx]
  | csr p =>
      have hunforced : (Task.csr p).Unforced := by
        cases hstate : p.state with
        | present =>
            simp only [Task.op, hstate, Op.Renews] at hop
            exact ⟨hstate, Bool.eq_false_of_not_eq_true hop⟩
        | absent =>
            simp only [Task.op, hstate, Op.Renews] at hop
            exact absurd trivial hop
      exact hunforced.node hrun hx

theorem FileSystem.exists_tracks (fs : FileSystem sys ι π)
    (keyPath csrPath : String) (s : σ) :
    ∃ l : Link, fs.Tracks keyPath csrPath l s ∧ l.Sound := by
  classical
  have hlinked : decide (fs.Matches keyPath csrPath s) = true ↔
      fs.Matches keyPath csrPath s := decide_eq_true_iff
  refine ⟨⟨_, _, decide (fs.Matches keyPath csrPath s)⟩,
    ⟨rfl, rfl, hlinked⟩, ?_⟩
  intro hmatches
  exact (hlinked.mp hmatches).nodes

/-! ## Keys and requests that match -/

/-- Whatever tasks succeed, in whatever order, the files are there and match
as the links say, and no other file changes. -/
theorem request_matches_run {tasks : List Task}
    (htracks : fs.Tracks keyPath csrPath l s)
    (hpaths : fs.resolve keyPath ≠ fs.resolve csrPath)
    (hon : ∀ task ∈ tasks, task.On keyPath csrPath)
    (hrun : runAll (Task.run sys) s tasks = .ok s') :
    sys.pathExists s' keyPath = (l.run (tasks.map Task.op)).source ∧
      sys.pathExists s' csrPath = (l.run (tasks.map Task.op)).derived ∧
      (fs.Matches keyPath csrPath s' ↔
        (l.run (tasks.map Task.op)).linked = true) ∧
      ∀ i, i ≠ fs.resolve keyPath → i ≠ fs.resolve csrPath →
        fs.node s' i = fs.node s i := by
  have hafter := htracks.run hpaths hon hrun
  refine ⟨by rw [fs.pathExists, hafter.source],
    by rw [fs.pathExists, hafter.derived], hafter.linked.symm, ?_⟩
  intro i hkey hcsr
  apply runAll_invariant (fun mid => fs.node mid i = fs.node s i) _ rfl hrun
  intro task hmem first next hfirst hstep
  have hi : i ≠ fs.resolve task.path := by
    obtain hpath | hpath := (hon task hmem).resolve_path
    · rw [hpath]
      exact hkey
    · rw [hpath]
      exact hcsr
  rw [Task.node_of_ne hstep hi, hfirst]

theorem request_matches_clientCsr : ∃ m,
    runAll (Task.run memorySystem) noFiles
        [.key clientKey, .csr clientCsr] = .ok m ∧
      memoryFiles.Matches "/certs/key.pem" "/certs/csr.pem" m := by
  have htracks : memoryFiles.Tracks "/certs/key.pem" "/certs/csr.pem"
      ⟨false, false, false⟩ noFiles := by
    refine ⟨rfl, rfl, fun h => absurd h Bool.false_ne_true, fun h => ?_⟩
    exact absurd h.nodes.1 Bool.false_ne_true
  have hon : ∀ task ∈ [Task.key clientKey, .csr clientCsr],
      task.On "/certs/key.pem" "/certs/csr.pem" := by
    intro task htask
    rw [List.mem_pair] at htask
    rcases htask with rfl | rfl
    · rfl
    · exact ⟨rfl, rfl⟩
  have hspec := @request_matches_run _ _ _ _ _ memorySystem _ memoryFiles
    "/certs/key.pem" "/certs/csr.pem" _ noFiles _
    [.key clientKey, .csr clientCsr] htracks (by decide) hon rfl
  exact ⟨_, rfl, hspec.2.2.1.mpr rfl⟩

/-- A request that is not of the key is left as it is, and does not come to be
of the key, until it is removed or its making is forced. -/
theorem stale_request {tasks : List Task}
    (hpaths : fs.resolve keyPath ≠ fs.resolve csrPath)
    (hon : ∀ task ∈ tasks, task.On keyPath csrPath)
    (hops : ∀ task ∈ tasks, ¬ task.op.Renews)
    (hexists : sys.pathExists s csrPath = true)
    (hstale : ¬ fs.Matches keyPath csrPath s)
    (hrun : runAll (Task.run sys) s tasks = .ok s') :
    fs.node s' (fs.resolve csrPath) = fs.node s (fs.resolve csrPath) ∧
      ¬ fs.Matches keyPath csrPath s' := by
  obtain ⟨l, htracks, -⟩ := fs.exists_tracks keyPath csrPath s
  have hderived : l.derived = true := by
    rw [htracks.derived, ← fs.pathExists, hexists]
  have hlinked : l.linked = false :=
    Bool.eq_false_of_not_eq_true fun h => hstale (htracks.linked.mp h)
  have hmapped : ∀ op ∈ tasks.map Task.op, ¬ op.Renews := by
    intro op hop
    obtain ⟨task, hmem, rfl⟩ := List.mem_map.mp hop
    exact hops task hmem
  have hafter := htracks.run hpaths hon hrun
  have hend := Link.stale_run hderived hlinked hmapped
  constructor
  · obtain ⟨x, hx⟩ := fs.exists_node hexists
    rw [hx]
    apply runAll_invariant
      (fun mid => fs.node mid (fs.resolve csrPath) = some x) _ hx hrun
    intro task hmem first next hfirst hstep
    exact Task.request_kept hpaths (hon task hmem) (hops task hmem) hstep hfirst
  · intro hmatches
    have hlinked' := hafter.linked.mpr hmatches
    rw [hend.2] at hlinked'
    exact absurd hlinked' Bool.false_ne_true

theorem not_matches_lostKey :
    ¬ memoryFiles.Matches "/certs/key.pem" "/certs/csr.pem" lostKey :=
  fun h => absurd h.nodes.1 Bool.false_ne_true

theorem stale_clientCsr : ∃ m,
    runAll (Task.run memorySystem) lostKey
        [.key clientKey, .csr clientCsr] = .ok m ∧
      ¬ memoryFiles.Matches "/certs/key.pem" "/certs/csr.pem" m := by
  have hon : ∀ task ∈ [Task.key clientKey, .csr clientCsr],
      task.On "/certs/key.pem" "/certs/csr.pem" ∧ ¬ task.op.Renews := by
    intro task htask
    rw [List.mem_pair] at htask
    rcases htask with rfl | rfl
    · exact ⟨rfl, id⟩
    · exact ⟨⟨rfl, rfl⟩, Bool.false_ne_true⟩
  have hspec := @stale_request _ _ _ _ _ memorySystem _ memoryFiles
    "/certs/key.pem" "/certs/csr.pem" lostKey _
    [.key clientKey, .csr clientCsr] (by decide)
    (fun task htask => (hon task htask).1)
    (fun task htask => (hon task htask).2) rfl not_matches_lostKey rfl
  exact ⟨_, rfl, hspec.2⟩

/-- The tasks of passes that make a key and then a request. -/
def passTasks (passes : List (KeyParams × CsrParams)) : List Task :=
  passes.flatMap fun pass => [.key pass.1, .csr pass.2]

theorem mem_passTasks_iff {passes : List (KeyParams × CsrParams)}
    {task : Task} :
    task ∈ passTasks passes ↔
      ∃ pass ∈ passes, task = .key pass.1 ∨ task = .csr pass.2 := by
  simp [passTasks]

theorem map_op_passTasks {passes : List (KeyParams × CsrParams)}
    (hunforced : ∀ task ∈ passTasks passes, task.Unforced) :
    (passTasks passes).map Task.op =
      (List.replicate passes.length Link.pass).flatten := by
  induction passes with
  | nil => rfl
  | cons pass rest ih =>
      have hkey := hunforced (.key pass.1)
        (mem_passTasks_iff.mpr ⟨pass, List.mem_cons_self, Or.inl rfl⟩)
      have hcsr := hunforced (.csr pass.2)
        (mem_passTasks_iff.mpr ⟨pass, List.mem_cons_self, Or.inr rfl⟩)
      have hrest : ∀ task ∈ passTasks rest, task.Unforced := by
        intro task hmem
        obtain ⟨next, hnext, htask⟩ := mem_passTasks_iff.mp hmem
        exact hunforced task
          (mem_passTasks_iff.mpr ⟨next, List.mem_cons_of_mem _ hnext, htask⟩)
      have hops : [(Task.key pass.1).op, (Task.csr pass.2).op] = Link.pass := by
        simp only [Task.op, hkey.1, hkey.2, hcsr.1, hcsr.2, Link.pass]
      rw [List.length_cons, List.replicate_succ, List.flatten_cons, ← ih hrest,
        ← hops]
      rfl

/-- Passes that force nothing leave a request of the key exactly when there was
none, or one of the key, before the first.  They keep all the files there are,
whatever size, type or subject is asked for. -/
theorem unforced_passes {passes : List (KeyParams × CsrParams)}
    (hpaths : fs.resolve keyPath ≠ fs.resolve csrPath) (hne : passes ≠ [])
    (hon : ∀ task ∈ passTasks passes, task.On keyPath csrPath)
    (hunforced : ∀ task ∈ passTasks passes, task.Unforced)
    (hrun : runAll (Task.run sys) s (passTasks passes) = .ok s') :
    (fs.Matches keyPath csrPath s' ↔
        sys.pathExists s csrPath = false ∨ fs.Matches keyPath csrPath s) ∧
      ∀ i x, fs.node s i = some x → fs.node s' i = some x := by
  obtain ⟨l, htracks, hsound⟩ := fs.exists_tracks keyPath csrPath s
  have hafter := htracks.run hpaths hon hrun
  obtain ⟨count, hcount⟩ :=
    Nat.exists_eq_succ_of_ne_zero (List.length_pos_iff.mpr hne).ne'
  have hlink : l.run ((passTasks passes).map Task.op) =
      ⟨true, true, !l.derived || l.linked⟩ := by
    rw [map_op_passTasks hunforced, hcount]
    exact Link.run_passes l hsound count
  constructor
  · rw [← hafter.linked, hlink, Bool.or_eq_true, htracks.linked,
      htracks.derived, ← fs.pathExists, Bool.not_eq_true']
  · intro i x hx
    apply runAll_invariant (fun mid => fs.node mid i = some x) _ hx hrun
    intro task hmem first next hfirst hstep
    exact (hunforced task hmem).node hstep hfirst

theorem unforced_clientCsr : ∃ m,
    runAll (Task.run memorySystem) lostKey
        (passTasks [(clientKey, clientCsr)]) = .ok m ∧
      ¬ memoryFiles.Matches "/certs/key.pem" "/certs/csr.pem" m := by
  have hon : ∀ task ∈ passTasks [(clientKey, clientCsr)],
      task.On "/certs/key.pem" "/certs/csr.pem" ∧ task.Unforced := by
    intro task htask
    obtain ⟨pass, hpass, htask⟩ := mem_passTasks_iff.mp htask
    rw [List.mem_singleton.mp hpass] at htask
    rcases htask with rfl | rfl
    · exact ⟨rfl, rfl, rfl⟩
    · exact ⟨⟨rfl, rfl⟩, rfl, rfl⟩
  have hspec := @unforced_passes _ _ _ _ _ memorySystem _ memoryFiles
    "/certs/key.pem" "/certs/csr.pem" lostKey _ [(clientKey, clientCsr)]
    (by decide) (List.cons_ne_nil _ _) (fun task htask => (hon task htask).1)
    (fun task htask => (hon task htask).2) rfl
  refine ⟨_, rfl, fun hmatches => ?_⟩
  obtain hmissing | hbefore := hspec.1.mp hmatches
  · exact absurd hmissing (by simp [memorySystem, lostKey, Memory.put])
  · exact absurd hbefore not_matches_lostKey

/-! ## Keys whose making fails -/

/-- The system that a failed write leaves. -/
def WriteError.left : WriteError σ → σ
  | .caught _ left => left
  | .other _ left => left

/-- A write that fails touches its own file only, and the attributes of a file
are none of its contents. -/
structure FileSystem.LocalFailures (fs : FileSystem sys ι π) : Prop where
  writeFile : ∀ {s path mode text err},
    sys.writeFile s path mode text = .error err →
      ∀ i, i ≠ fs.resolve path → fs.node err.left i = fs.node s i
  setAttributes : ∀ {s path args failure left},
    sys.setAttributes s path args = .error (failure, left) →
      fs.node left = fs.node s

/-- The write of a new key fails, and what it leaves stays: the module does not
catch the error, or cannot remove the file. -/
def KeyParams.WriteStays (sys : System κ ρ σ) (p : KeyParams) (s left : σ) :
    Prop :=
  ∃ key made, sys.generateKey s p.keyType p.size = .ok (key, made) ∧
    ((∃ failure, sys.writeFile made p.path (some p.mode)
        (sys.dumpPrivatekey key) = .error (.other failure left)) ∨
      ∃ msg msg', sys.writeFile made p.path (some p.mode)
          (sys.dumpPrivatekey key) = .error (.caught msg left) ∧
        sys.removeFile left p.path = .error (.other msg'))

/-- The task ends in a write that fails and stays. -/
def KeyParams.Leaves (sys : System κ ρ σ) (p : KeyParams) (s left : σ) :
    Prop :=
  p.state = .present ∧ sys.isDir s (dirname p.path) = true ∧
    (p.privateKey sys).needsFile sys s = true ∧ p.WriteStays sys s left

theorem KeyParams.WriteStays.node {p : KeyParams} {left : σ}
    (hlocal : fs.LocalFailures) (hstays : p.WriteStays sys s left) :
    ∀ i, i ≠ fs.resolve p.path → fs.node left i = fs.node s i := by
  obtain ⟨key, made, hgenerate, ⟨failure, hfile⟩ | ⟨msg, msg', hfile, -⟩⟩ :=
    hstays
  · rw [← fs.generateKey hgenerate]
    exact hlocal.writeFile hfile
  · rw [← fs.generateKey hgenerate]
    exact hlocal.writeFile hfile

theorem KeyParams.WriteStays.writeKey {p : KeyParams} {left : σ}
    (hstays : p.WriteStays sys s left) :
    ∃ failure, p.writeKey sys s = .error (failure, left) := by
  obtain ⟨key, made, hgenerate, ⟨failure, hfile⟩ | ⟨msg, msg', hfile, hkept⟩⟩ :=
    hstays
  · refine ⟨failure, ?_⟩
    rw [KeyParams.writeKey, hgenerate]
    dsimp only
    rw [hfile]
  · refine ⟨.failJson msg', ?_⟩
    rw [KeyParams.writeKey, hgenerate]
    dsimp only
    rw [hfile]
    dsimp only [KeyParams.afterWriteError]
    rw [hkept]

end Runs

end FreeipaProv.Openssl
