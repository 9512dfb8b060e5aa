import FreeipaProv.Lib.Fallible
import FreeipaProv.Lib.Framing
import FreeipaProv.Value

/-!
# The `openssl_privatekey` and `openssl_csr` modules

Each module makes a file that is missing or whose making is forced, removes
it, or says in check mode what it would do.  pyOpenSSL and the file system are
parameters.
-/

namespace FreeipaProv.Openssl

open Fallible

/-! ## Parameters -/

inductive FileState where
  | present
  | absent
  deriving DecidableEq, Repr

inductive KeyType where
  | rsa
  | dsa
  deriving DecidableEq, Repr

/-- The arguments `load_file_common_arguments` reads, with the path. -/
structure FileArgs where
  mode : Option ℕ := none
  owner : Option String := none
  group : Option String := none
  deriving DecidableEq, Repr

structure KeyParams where
  path : String
  state : FileState := .present
  size : ℤ := 4096
  keyType : KeyType := .rsa
  force : Bool := false
  fileArgs : FileArgs := {}

/-- The parameters of `openssl_csr`, which has to have a name or an alternative
name.  The argument spec does not make it have a private key. -/
structure CsrParams where
  path : String
  state : FileState := .present
  privatekeyPath : Option String := none
  digest : String := "sha256"
  version : ℤ := 3
  force : Bool := false
  subjectAltName : Option String := none
  countryName : Option String := none
  stateOrProvinceName : Option String := none
  localityName : Option String := none
  organizationName : Option String := none
  organizationalUnitName : Option String := none
  commonName : Option String := none
  emailAddress : Option String := none
  fileArgs : FileArgs := {}
  required_one_of : commonName.isSome ∨ subjectAltName.isSome := by decide

/-! ## The system -/

/-- An exception of `os.open`, `os.write` or `open`, with what it leaves: one
that the module catches, or another one. -/
inductive WriteError (σ : Type) where
  | caught (msg : String) (left : σ)
  | other (failure : Failure) (left : σ)

inductive RemoveError where
  | enoent
  | other (msg : String)

/-- What fails, with the system it leaves. -/
abbrev Attempt (σ α : Type) : Type := Except (Failure × σ) α

/-- The file system and pyOpenSSL, with keys and requests. -/
structure System (κ ρ σ : Type) where
  pathExists : σ → String → Bool
  isDir : σ → String → Bool
  readFile : σ → String → Except Failure String
  writeFile : σ → String → Option ℕ → String → Except (WriteError σ) σ
  removeFile : σ → String → Except RemoveError σ
  /-- `set_fs_attributes_if_different` -/
  setAttributes : σ → String → FileArgs → Attempt σ (Bool × σ)
  generateKey : σ → KeyType → ℤ → Except Failure (κ × σ)
  dumpPrivatekey : κ → String
  loadPrivatekey : String → Except Failure κ
  /-- the digests of the public key, unless pyOpenSSL is too old -/
  publicDigests : κ → Option (List (String × List Char))
  /-- a request with a version and a subject -/
  newRequest : ℤ → List (String × String) → Except Failure ρ
  addSubjectAltName : ρ → String → Except Failure ρ
  signRequest : ρ → κ → String → Except Failure ρ
  dumpRequest : ρ → String
  /-- `to_native` of an exception -/
  toNative : Failure → String

/-! ## What both modules do -/

/-- What `exit_json` gets that depends on the run, and the system. -/
structure Results (φ σ : Type) where
  changed : Bool
  fingerprint : φ
  system : σ

/-- The parts in which the two modules differ. -/
structure FileModule (φ σ : Type) where
  path : String
  state : FileState
  force : Bool
  fileArgs : FileArgs
  noDirectory : String
  /-- make the file -/
  write : σ → Attempt σ σ
  /-- what is read of the file in the end -/
  inspect : σ → Except Failure φ
  /-- what there is before -/
  blank : φ

/-- `os.path.dirname`. -/
def dirname (path : String) : String :=
  let head := (path.toList.reverse.dropWhile (· ≠ '/')).reverse
  if head.all (· = '/') then String.ofList head
  else String.ofList (head.reverse.dropWhile (· = '/')).reverse

section Modules

variable {κ ρ σ φ : Type} (sys : System κ ρ σ)

namespace FileModule

variable (fm : FileModule φ σ)

def needsFile (s : σ) : Bool :=
  !sys.pathExists s fm.path || fm.force

def writeIfNeeded (s : σ) : Attempt σ σ :=
  if fm.needsFile sys s then fm.write s else .ok s

def generate (s : σ) : Attempt σ (Results φ σ) := do
  let changed := fm.needsFile sys s
  let s ← fm.writeIfNeeded sys s
  let fingerprint ← (fm.inspect s).mapError fun failure => (failure, s)
  let (different, system) ← sys.setAttributes s fm.path fm.fileArgs
  .ok { changed := changed || different, fingerprint, system }

def remove (s : σ) : Attempt σ (Results φ σ) :=
  match sys.removeFile s fm.path with
  | .ok system => .ok { changed := true, fingerprint := fm.blank, system }
  | .error .enoent =>
      .ok { changed := false, fingerprint := fm.blank, system := s }
  | .error (.other msg) => .error (.failJson msg, s)

/-- What check mode announces. -/
def announces (s : σ) : Bool :=
  match fm.state with
  | .present => fm.force || !sys.pathExists s fm.path
  | .absent => sys.pathExists s fm.path

/-- `main`. -/
def main (checkMode : Bool) (s : σ) : Attempt σ (Results φ σ) :=
  if sys.isDir s (dirname fm.path) = false then
    .error (.failJson fm.noDirectory, s)
  else if checkMode then
    .ok { changed := fm.announces sys s, fingerprint := fm.blank, system := s }
  else
    match fm.state with
    | .present => fm.generate sys s
    | .absent => fm.remove sys s

/-- The system after a task, whether it fails or not. -/
def after (s : σ) : σ :=
  match fm.main sys false s with
  | .ok out => out.system
  | .error (_, left) => left

end FileModule

/-! ## Private keys -/

namespace KeyParams

variable (p : KeyParams)

/-- The mode that is given, or `0600`. -/
def mode : ℕ :=
  match p.fileArgs.mode with
  | none | some 0 => 0o600
  | some mode => mode

/-- `PrivateKeyError(exc)`, for the exceptions that `generate` catches. -/
def caughtKeyError : Failure → Failure
  | .typeError => .failJson (sys.toNative .typeError)
  | .valueError => .failJson (sys.toNative .valueError)
  | failure => failure

/-- `self.remove()`, and then the error of writing. -/
def afterWriteError (msg : String) (left : σ) : Failure × σ :=
  match sys.removeFile left p.path with
  | .ok s => (.failJson msg, s)
  | .error .enoent => (.failJson msg, left)
  | .error (.other msg') => (.failJson msg', left)

def writeKey (s : σ) : Attempt σ σ :=
  match sys.generateKey s p.keyType p.size with
  | .error failure => .error (caughtKeyError sys failure, s)
  | .ok (key, s) =>
      match sys.writeFile s p.path (some p.mode) (sys.dumpPrivatekey key) with
      | .ok s => .ok s
      | .error (.caught msg left) => .error (p.afterWriteError sys msg left)
      | .error (.other failure left) => .error (failure, left)

/-- Digits in pairs with colons between them. -/
def colonPairs (digest : List Char) : String :=
  String.ofList ([':'].intercalate (Framing.chunks 2 digest))

/-- `get_fingerprint`. -/
def getFingerprint (s : σ) : Except Failure (List (String × String)) := do
  let content ← sys.readFile s p.path
  let key ← sys.loadPrivatekey content
  .ok (((sys.publicDigests key).getD []).map fun (algo, digest) =>
    (algo, colonPairs digest))

/-- `openssl_privatekey`. -/
def privateKey : FileModule (List (String × String)) σ where
  path := p.path
  state := p.state
  force := p.force
  fileArgs := { p.fileArgs with mode := some p.mode }
  noDirectory := "The directory " ++ dirname p.path ++
    " does not exist or the file is not a directory"
  write := p.writeKey sys
  inspect := p.getFingerprint sys
  blank := []

end KeyParams

/-! ## Certificate signing requests -/

namespace CsrParams

variable (p : CsrParams)

/-- The parts of the subject that are given. -/
def subject : List (String × String) :=
  [("C", p.countryName), ("ST", p.stateOrProvinceName), ("L", p.localityName),
    ("O", p.organizationName), ("OU", p.organizationalUnitName),
    ("CN", p.commonName), ("emailAddress", p.emailAddress)].filterMap
      fun (key, value) =>
        (value.filter (· ≠ "")).map fun value => (key, value)

/-- The alternative name after its default. -/
def altName : String :=
  p.subjectAltName.getD ("DNS:" ++ p.commonName.getD "None")

/-- `.encode('ascii')`. -/
def encodeAscii (text : String) : Except Failure String :=
  if text.toList.all fun c => c.toNat < 128 then .ok text
  else .error .valueError

/-- What `open` takes as its path. -/
def keyPath : Except Failure String :=
  match p.privatekeyPath with
  | some path => .ok path
  | none => .error .typeError

def readKey (s : σ) : Except Failure κ := do
  let path ← p.keyPath
  let content ← sys.readFile s path
  sys.loadPrivatekey content

/-- The request, signed with the private key. -/
def request (s : σ) : Except Failure ρ := do
  let req ← sys.newRequest p.version p.subject
  let altName ← encodeAscii p.altName
  let req ← sys.addSubjectAltName req altName
  let key ← p.readKey sys s
  sys.signRequest req key p.digest

def writeCsr (s : σ) : Attempt σ σ :=
  match p.request sys s with
  | .error failure => .error (failure, s)
  | .ok req =>
      match sys.writeFile s p.path none (sys.dumpRequest req) with
      | .ok s => .ok s
      | .error (.caught msg left) => .error (.failJson msg, left)
      | .error (.other failure left) => .error (failure, left)

/-- `openssl_csr`. -/
def certificateSigningRequest : FileModule Unit σ where
  path := p.path
  state := p.state
  force := p.force
  fileArgs := p.fileArgs
  noDirectory := "The directory " ++ p.path ++ " does not exist"
  write := p.writeCsr sys
  inspect _ := .ok ()
  blank := ()

end CsrParams

end Modules

end FreeipaProv.Openssl
