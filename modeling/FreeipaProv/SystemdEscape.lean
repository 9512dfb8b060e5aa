import FreeipaProv.Lib.SymbolCode

/-!
# Unit names of paths

`systemd_escape` turns a path into the name of a unit.  It is compared with
the mapping of `systemd-escape --path`, and read back.
-/

namespace FreeipaProv

open SymbolCode

/-! ## The filter -/

/-- Python's `hex`. -/
def hex (n : ℕ) : List Char :=
  '0' :: 'x' :: Nat.toDigits 16 n

/-- The characters that pass unchanged. -/
def isAlphanumeric (c : Char) : Bool :=
  ('a' ≤ c && c ≤ 'z') || ('A' ≤ c && c ≤ 'Z') || ('0' ≤ c && c ≤ '9')

/-- One round of the loop of `systemd_escape`, at position `i`. -/
def systemdEscapeStep (res : List Char) (i : ℕ) (c : Char) : List Char :=
  if i = 0 ∧ c = '/' then
    res
  else if c = '.' ∧ res = [] then
    res ++ ['\\', 'x', '2', 'e']
  else if isAlphanumeric c ∨ c = '_' then
    res ++ [c]
  else if c = '/' then
    res ++ ['-']
  else
    res ++ '\\' :: (hex c.toNat).drop 1

def systemdEscape (data : String) : String :=
  String.ofList
    (data.toList.zipIdx.foldl (fun res ci => systemdEscapeStep res ci.2 ci.1) [])

/-- What a round adds for a character after the first slash. -/
def escapeChar (c : Char) : List Char :=
  if isAlphanumeric c ∨ c = '_' then [c]
  else if c = '/' then ['-']
  else '\\' :: (hex c.toNat).drop 1

/-- The case of the initial `.` adds what the last case adds as well. -/
theorem systemdEscapeStep_of_pos {i : ℕ} (hi : 0 < i) (res : List Char)
    (c : Char) : systemdEscapeStep res i c = res ++ escapeChar c := by
  have hdot : escapeChar '.' = ['\\', 'x', '2', 'e'] := by decide
  rw [systemdEscapeStep, if_neg (by omega)]
  by_cases hc : c = '.' ∧ res = []
  · rw [if_pos hc, hc.1, hdot]
  · rw [if_neg hc, escapeChar]
    split_ifs <;> rfl

theorem foldl_systemdEscapeStep {i : ℕ} (hi : 0 < i) (res text : List Char) :
    (text.zipIdx i).foldl (fun res ci => systemdEscapeStep res ci.2 ci.1) res =
      res ++ text.flatMap escapeChar := by
  induction text generalizing i res with
  | nil => simp
  | cons c rest ih =>
      rw [List.zipIdx_cons, List.foldl_cons, ih (Nat.succ_pos i),
        systemdEscapeStep_of_pos hi, List.flatMap_cons, List.append_assoc]

/-- An absolute path is written character by character after its first
slash. -/
theorem toList_systemdEscape {data : String} {body : List Char}
    (hdata : data.toList = '/' :: body) :
    (systemdEscape data).toList = body.flatMap escapeChar := by
  have hfirst : systemdEscapeStep [] 0 '/' = [] := by decide
  rw [systemdEscape, String.toList_ofList, hdata, List.zipIdx_cons,
    List.foldl_cons, hfirst, foldl_systemdEscapeStep (by omega),
    List.nil_append]

/-! ## Two hexadecimal digits -/

theorem toDigits_eq_pair {n : ℕ} (hlo : 16 ≤ n) (hhi : n < 256) :
    Nat.toDigits 16 n = [Nat.digitChar (n / 16), Nat.digitChar (n % 16)] := by
  have htable : ∀ k < 256, 16 ≤ k → Nat.toDigits 16 k =
      [Nat.digitChar (k / 16), Nat.digitChar (k % 16)] := by decide +kernel
  exact htable n hhi hlo

theorem exists_ofNat {c : Char} {bound : ℕ} (hc : c.toNat < bound) :
    ∃ n < bound, Char.ofNat n = c := by
  exact ⟨c.toNat, hc, Char.ofNat_toNat c⟩

/-! ## Reading a unit name back -/

def hexValue (c : Char) : Option ℕ :=
  if '0' ≤ c ∧ c ≤ '9' then some (c.toNat - 48)
  else if 'a' ≤ c ∧ c ≤ 'f' then some (c.toNat - 87)
  else if 'A' ≤ c ∧ c ≤ 'F' then some (c.toNat - 55)
  else none

/-- `-` is a slash, a backslash with `x` and two hexadecimal digits their
character, and every other character itself. -/
def unescapeChars : List Char → List Char
  | [] => []
  | '\\' :: 'x' :: high :: low :: rest =>
      match hexValue high, hexValue low with
      | some a, some b => Char.ofNat (16 * a + b) :: unescapeChars rest
      | _, _ => '\\' :: unescapeChars ('x' :: high :: low :: rest)
  | '-' :: rest => '/' :: unescapeChars rest
  | c :: rest => c :: unescapeChars rest

def systemdUnescape (name : String) : String :=
  String.ofList ('/' :: unescapeChars name.toList)

theorem hexValue_digitChar {n : ℕ} (hn : n < 16) :
    hexValue (Nat.digitChar n) = some n := by
  have htable : ∀ k < 16, hexValue (Nat.digitChar k) = some k := by decide
  exact htable n hn

theorem unescapeChars_of_ne {c : Char} (hslash : c ≠ '\\') (hdash : c ≠ '-')
    (rest : List Char) :
    unescapeChars (c :: rest) = c :: unescapeChars rest := by
  rw [unescapeChars]
  · intro _ _ _ heq _
    exact hslash heq
  · exact hdash

theorem unescapeChars_escape {c : Char} (hlo : 16 ≤ c.toNat)
    (hhi : c.toNat < 256) (rest : List Char) :
    unescapeChars ('\\' :: (hex c.toNat).drop 1 ++ rest) =
      c :: unescapeChars rest := by
  have hhigh : hexValue (Nat.digitChar (c.toNat / 16)) =
      some (c.toNat / 16) := hexValue_digitChar (by omega)
  have hlow : hexValue (Nat.digitChar (c.toNat % 16)) =
      some (c.toNat % 16) := hexValue_digitChar (by omega)
  have hcode : 16 * (c.toNat / 16) + c.toNat % 16 = c.toNat :=
    Nat.div_add_mod c.toNat 16
  rw [hex, toDigits_eq_pair hlo hhi]
  simp only [List.drop_succ_cons, List.drop_zero, List.cons_append,
    List.nil_append, unescapeChars, hhigh, hlow, hcode, Char.ofNat_toNat]

/-- What was written for one character is read back as that character,
whatever follows. -/
theorem unescapeChars_escapeChar {c : Char} (hlo : 16 ≤ c.toNat)
    (hhi : c.toNat < 256) (rest : List Char) :
    unescapeChars (escapeChar c ++ rest) = c :: unescapeChars rest := by
  rw [escapeChar]
  by_cases hkept : isAlphanumeric c ∨ c = '_'
  · have hslash : c ≠ '\\' := by
      rintro rfl
      exact absurd hkept (by decide)
    have hdash : c ≠ '-' := by
      rintro rfl
      exact absurd hkept (by decide)
    rw [if_pos hkept, List.singleton_append, unescapeChars_of_ne hslash hdash]
  · rw [if_neg hkept]
    by_cases hsep : c = '/'
    · rw [if_pos hsep, hsep, List.singleton_append, unescapeChars]
    · rw [if_neg hsep, unescapeChars_escape hlo hhi]

theorem escapeChar_subset {c : Char} (hlo : 16 ≤ c.toNat)
    (hhi : c.toNat < 256) :
    ∀ out ∈ escapeChar c,
      isAlphanumeric out ∨ out = '_' ∨ out = '-' ∨ out = '\\' := by
  have hdigit : ∀ n < 16, isAlphanumeric (Nat.digitChar n) = true := by decide
  intro out hout
  rw [escapeChar] at hout
  split_ifs at hout with hkept hsep
  · rw [List.mem_singleton] at hout
    rw [hout]
    exact hkept.elim Or.inl fun hunder => Or.inr (Or.inl hunder)
  · rw [List.mem_singleton] at hout
    simp [hout]
  · rw [hex, toDigits_eq_pair hlo hhi] at hout
    simp only [List.drop_succ_cons, List.drop_zero, List.mem_cons,
      List.not_mem_nil, or_false] at hout
    rcases hout with rfl | rfl | rfl | rfl
    · simp
    · decide
    · exact Or.inl (hdigit _ (by omega))
    · exact Or.inl (hdigit _ (by omega))

/-- A path of printable ASCII characters. -/
def IsPrintablePath (p : String) : Prop :=
  p.toList.head? = some '/' ∧ ∀ c ∈ p.toList, 0x20 ≤ c.toNat ∧ c.toNat ≤ 0x7e

section Printable

variable {p : String}

theorem IsPrintablePath.exists_body (hp : IsPrintablePath p) :
    ∃ body, p.toList = '/' :: body ∧
      ∀ c ∈ body, 16 ≤ c.toNat ∧ c.toNat < 256 := by
  obtain ⟨body, hbody⟩ := List.head?_eq_some_iff.mp hp.1
  refine ⟨body, hbody, ?_⟩
  intro c hc
  have hprintable := hp.2 c (by simp [hbody, hc])
  omega

theorem systemdUnescape_of_printable (hp : IsPrintablePath p) :
    systemdUnescape (systemdEscape p) = p := by
  obtain ⟨body, hbody, hchars⟩ := hp.exists_body
  have hread : unescapeChars (body.flatMap escapeChar) = body := by
    apply decode_flatMap
    · rfl
    · intro c hc rest
      exact unescapeChars_escapeChar (hchars c hc).1 (hchars c hc).2 rest
  rw [systemdUnescape, toList_systemdEscape hbody, hread, ← hbody,
    String.ofList_toList]

end Printable

/-- Unit names of printable paths can be read back, so that two paths never
share one. -/
theorem systemdEscape_reversible (p q : String) (hp : IsPrintablePath p)
    (hq : IsPrintablePath q) :
    systemdUnescape (systemdEscape p) = p ∧
      (systemdEscape p = systemdEscape q ↔ p = q) ∧
      ∀ c ∈ (systemdEscape p).toList,
        isAlphanumeric c ∨ c = '_' ∨ c = '-' ∨ c = '\\' := by
  refine ⟨systemdUnescape_of_printable hp, ⟨?_, ?_⟩, ?_⟩
  · intro hname
    calc p = systemdUnescape (systemdEscape p) :=
          (systemdUnescape_of_printable hp).symm
      _ = systemdUnescape (systemdEscape q) := by rw [hname]
      _ = q := systemdUnescape_of_printable hq
  · intro hpath
    rw [hpath]
  · obtain ⟨body, hbody, hchars⟩ := hp.exists_body
    intro c hc
    rw [toList_systemdEscape hbody, List.mem_flatMap] at hc
    obtain ⟨source, hsource, hout⟩ := hc
    exact escapeChar_subset (hchars source hsource).1
      (hchars source hsource).2 c hout

theorem systemdEscape_reversible_device :
    IsPrintablePath "/dev/disk/by-id/swap" ∧ IsPrintablePath "/media/data.vol" ∧
      systemdUnescape (systemdEscape "/dev/disk/by-id/swap") =
        "/dev/disk/by-id/swap" ∧
      systemdEscape "/dev/disk/by-id/swap" ≠ systemdEscape "/media/data.vol" := by
  have hswap : IsPrintablePath "/dev/disk/by-id/swap" := by
    simp [IsPrintablePath]
  have hdata : IsPrintablePath "/media/data.vol" := by
    simp [IsPrintablePath]
  have hreversible := systemdEscape_reversible _ _ hswap hdata
  exact ⟨hswap, hdata, hreversible.1, hreversible.2.1.not.mpr (by decide)⟩

/-! ## The mapping of `systemd-escape --path` -/

/-- A path as `systemd-escape --path` takes it: absolute, of ASCII characters,
without `.` and `..` components. -/
structure AbsolutePath where
  text : String
  absolute : text.toList.head? = some '/'
  ascii : ∀ c ∈ text.toList, 0 < c.toNat ∧ c.toNat < 128
  normal : ∀ component ∈ text.toList.splitOn '/',
    component ≠ ['.'] ∧ component ≠ ['.', '.']

/-- What stands after the first slash. -/
def AbsolutePath.body (path : AbsolutePath) : List Char :=
  path.text.toList.tail

/-- What `systemd-escape --path` writes for a character that is not the first
one. -/
def unitChar (c : Char) : List Char :=
  if isAlphanumeric c ∨ c = ':' ∨ c = '_' ∨ c = '.' then [c]
  else if c = '/' then ['-']
  else ['\\', 'x', Nat.digitChar (c.toNat / 16), Nat.digitChar (c.toNat % 16)]

def unitFirstChar (c : Char) : List Char :=
  if c = '.' then ['\\', 'x', '2', 'e'] else unitChar c

/-- `systemd-escape --path`: the path without leading, trailing and duplicate
slashes, escaped; the root is `-`. -/
def systemdPathName (path : String) : String :=
  match squeeze '/' path.toList with
  | [] => "-"
  | c :: rest => String.ofList (unitFirstChar c ++ rest.flatMap unitChar)

/-! ### Characters on which the two agree -/

section Characters

variable {c : Char}

theorem escapeChar_unitChar (hc : 0 < c.toNat ∧ c.toNat < 128) :
    (escapeChar c = unitChar c ∨ clash (escapeChar c) (unitChar c) = true) ∧
      (escapeChar c = unitChar c ↔ (c ≠ ':' ∧ 16 ≤ c.toNat) ∧ c ≠ '.') := by
  obtain ⟨hpos, hlt⟩ := hc
  obtain ⟨n, hn, rfl⟩ := exists_ofNat hlt
  clear hlt
  revert n
  decide +kernel

theorem escapeChar_unitFirstChar (hc : 0 < c.toNat ∧ c.toNat < 128) :
    (escapeChar c = unitFirstChar c ∨
        clash (escapeChar c) (unitFirstChar c) = true) ∧
      (escapeChar c = unitFirstChar c ↔ c ≠ ':' ∧ 16 ≤ c.toNat) := by
  obtain ⟨hpos, hlt⟩ := hc
  obtain ⟨n, hn, rfl⟩ := exists_ofNat hlt
  clear hlt
  revert n
  decide +kernel

/-- Either mapping writes `-` for a slash and nowhere else. -/
theorem count_dash (hc : 0 < c.toNat ∧ c.toNat < 128) :
    (escapeChar c).count '-' = (if c = '/' then 1 else 0) ∧
      (unitChar c).count '-' = (if c = '/' then 1 else 0) ∧
      (unitFirstChar c).count '-' = (if c = '/' then 1 else 0) := by
  obtain ⟨hpos, hlt⟩ := hc
  obtain ⟨n, hn, rfl⟩ := exists_ofNat hlt
  clear hlt
  revert n
  decide +kernel

end Characters

/-! ### Paths on which the two agree -/

section Paths

variable {body : List Char}

theorem flatMap_escapeChar_eq_iff {first : Char} {rest : List Char}
    (hascii : ∀ c ∈ first :: rest, 0 < c.toNat ∧ c.toNat < 128) :
    (first :: rest).flatMap escapeChar =
        unitFirstChar first ++ rest.flatMap unitChar ↔
      (∀ c ∈ first :: rest, c ≠ ':' ∧ 16 ≤ c.toNat) ∧ '.' ∉ rest := by
  rw [List.forall_mem_cons] at hascii
  obtain ⟨hfirst, hrest⟩ := hascii
  have hhead := escapeChar_unitFirstChar hfirst
  have htail : rest.flatMap escapeChar = rest.flatMap unitChar ↔
      ∀ c ∈ rest, escapeChar c = unitChar c := by
    apply flatMap_eq_iff
    intro c hc
    exact (escapeChar_unitChar (hrest c hc)).1
  have hchars : (∀ c ∈ rest, escapeChar c = unitChar c) ↔
      (∀ c ∈ rest, c ≠ ':' ∧ 16 ≤ c.toNat) ∧ '.' ∉ rest := by
    constructor
    · intro hagree
      refine ⟨?_, ?_⟩
      · intro c hc
        exact ((escapeChar_unitChar (hrest c hc)).2.mp (hagree c hc)).1
      · intro hdot
        exact ((escapeChar_unitChar (hrest _ hdot)).2.mp (hagree _ hdot)).2 rfl
    · intro hagree c hc
      have hne : c ≠ '.' := ne_of_mem_of_not_mem hc hagree.2
      exact (escapeChar_unitChar (hrest c hc)).2.mpr ⟨hagree.1 c hc, hne⟩
  rw [List.flatMap_cons, append_eq_iff hhead.1, hhead.2, htail, hchars,
    List.forall_mem_cons, ← and_assoc]

theorem count_dash_escape (hascii : ∀ c ∈ body, 0 < c.toNat ∧ c.toNat < 128) :
    (body.flatMap escapeChar).count '-' = body.count '/' := by
  apply count_flatMap
  intro c hc
  exact (count_dash (hascii c hc)).1

theorem count_dash_unit {first : Char} {rest : List Char}
    (hascii : ∀ c ∈ first :: rest, 0 < c.toNat ∧ c.toNat < 128) :
    (unitFirstChar first ++ rest.flatMap unitChar).count '-' =
      (first :: rest).count '/' := by
  have hrest : (rest.flatMap unitChar).count '-' = rest.count '/' := by
    apply count_flatMap
    intro c hc
    exact (count_dash (hascii c (List.mem_cons_of_mem first hc))).2.1
  have hfirst := (count_dash (hascii first List.mem_cons_self)).2.2
  rw [List.count_append, hfirst, hrest, List.count_cons, add_comm]
  simp

theorem escape_eq_dash_iff (hslashes : ∀ c ∈ body, c = '/') :
    body.flatMap escapeChar = ['-'] ↔ body = ['/'] := by
  have hcount : (body.flatMap escapeChar).count '-' = body.count '/' := by
    apply count_dash_escape
    intro c hc
    rw [hslashes c hc]
    decide
  have hlength : body.count '/' = body.length := by
    rw [List.count_eq_length]
    intro c hc
    exact (hslashes c hc).symm
  constructor
  · intro heq
    rw [heq, hlength] at hcount
    obtain ⟨c, hbody⟩ := List.length_eq_one_iff.mp hcount.symm
    have hc : c = '/' := hslashes c (by simp [hbody])
    rw [hbody, hc]
  · intro hbody
    rw [hbody]
    decide

/-- Where the two mappings write the same for the path after its first
slash. -/
theorem flatMap_escapeChar_eq_name_iff {first : Char} {rest : List Char}
    (hascii : ∀ c ∈ body, 0 < c.toNat ∧ c.toNat < 128)
    (hkept : squeeze '/' body = first :: rest) :
    body.flatMap escapeChar = unitFirstChar first ++ rest.flatMap unitChar ↔
      [] ∉ body.splitOn '/' ∧ (∀ c ∈ body, c ≠ ':' ∧ 16 ≤ c.toNat) ∧
        '.' ∉ body.tail := by
  have hkeptAscii : ∀ c ∈ first :: rest, 0 < c.toNat ∧ c.toNat < 128 := by
    intro c hc
    apply hascii
    exact squeeze_subset '/' body (by rwa [hkept])
  constructor
  · intro heq
    have hcount : (squeeze '/' body).count '/' = body.count '/' := by
      calc (squeeze '/' body).count '/'
          = (unitFirstChar first ++ rest.flatMap unitChar).count '-' := by
            rw [hkept, count_dash_unit hkeptAscii]
        _ = (body.flatMap escapeChar).count '-' := by rw [heq]
        _ = body.count '/' := count_dash_escape hascii
    have hnot : [] ∉ body.splitOn '/' :=
      (count_squeeze_eq_iff (by simp [hkept])).mp hcount
    have hbody : body = first :: rest := by
      rw [← hkept, squeeze_of_not_mem hnot]
    refine ⟨hnot, ?_⟩
    rw [hbody] at heq ⊢
    exact (flatMap_escapeChar_eq_iff hkeptAscii).mp heq
  · rintro ⟨hnot, hchars⟩
    have hbody : body = first :: rest := by
      rw [← hkept, squeeze_of_not_mem hnot]
    rw [hbody] at hchars ⊢
    exact (flatMap_escapeChar_eq_iff hkeptAscii).mpr hchars

end Paths

theorem AbsolutePath.toList_text (path : AbsolutePath) :
    path.text.toList = '/' :: path.body := by
  obtain ⟨body, hbody⟩ := List.head?_eq_some_iff.mp path.absolute
  rw [AbsolutePath.body, hbody, List.tail_cons]

theorem AbsolutePath.ascii_body (path : AbsolutePath) :
    ∀ c ∈ path.body, 0 < c.toNat ∧ c.toNat < 128 := by
  intro c hc
  apply path.ascii
  rw [path.toList_text]
  exact List.mem_cons_of_mem _ hc

theorem AbsolutePath.text_eq_iff (path : AbsolutePath) :
    path.text = "//" ↔ path.body = ['/'] := by
  rw [← String.toList_inj, path.toList_text]
  simp

/-- `systemd_escape` agrees with `systemd-escape --path` exactly on the paths
without trailing and duplicate slashes other than the root, without `:` and
control characters below 16, and with a `.` at the very start only; and, by
coincidence, on `//`. -/
theorem systemdEscape_eq_systemdPathName_iff (path : AbsolutePath) :
    systemdEscape path.text = systemdPathName path.text ↔
      path.text = "//" ∨
        ([] ∉ path.body.splitOn '/' ∧
          (∀ c ∈ path.body, c ≠ ':' ∧ 16 ≤ c.toNat) ∧
          '.' ∉ path.body.tail) := by
  have hescape := toList_systemdEscape path.toList_text
  rw [path.text_eq_iff, ← String.toList_inj, hescape, systemdPathName,
    path.toList_text, squeeze_cons_self]
  cases hkept : squeeze '/' path.body with
  | nil =>
      have hslashes : ∀ c ∈ path.body, c = '/' := squeeze_eq_nil_iff.mp hkept
      have hmem : [] ∈ path.body.splitOn '/' := by
        by_contra hnot
        rw [squeeze_of_not_mem hnot] at hkept
        exact hnot (by simp [hkept])
      simp [hmem, escape_eq_dash_iff hslashes]
  | cons first rest =>
      have hne : path.body ≠ ['/'] := by
        intro hbody
        have hempty : squeeze '/' ['/'] = [] := by decide
        rw [hbody, hempty] at hkept
        cases hkept
      simp [hne, flatMap_escapeChar_eq_name_iff path.ascii_body hkept]

/-- A data volume whose name has an extension. -/
def dataVolume : AbsolutePath where
  text := "/media/data.vol"
  absolute := by simp
  ascii := by simp
  normal := by decide

theorem systemdEscape_ne_systemdPathName :
    ¬ ∀ path : AbsolutePath,
      systemdEscape path.text = systemdPathName path.text := by
  intro hall
  exact absurd (hall dataVolume) (by decide)

end FreeipaProv
