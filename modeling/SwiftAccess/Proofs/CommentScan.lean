import SwiftAccess.Proofs.KeywordRuns

/-!
# Comments, as a scan from left to right finds them

A comment is a `//` up to the end of its line, or a `/*` up to and including the first `*/` after
it, on the same line or a later one, or never closed. Markers inside a comment start nothing.
`Comments.scan` reads a line this way from the mode the line starts in, and marks each character
with the mode it is read in; a marker belongs to the comment it opens or closes.
`Comments.blank` replaces every comment character by a space, and `Comments.blankLines` does so
for consecutive lines: a block comment carries over to the next line, a `//` comment ends with its
line.

No marker holds white space, so where two texts meet at white space the scan of the whole is the
scan of the one followed by the scan of the other (`Comments.scan_append`). Once the scan is in a
`//` comment, what follows is comment (`Comments.scan_append_of_line`). A block comment ends at the
first `*/` (`Comments.scan_block_of_breakOn`), which is how the lexer finds its end too. A blanked
text holds no comment marker at all (`Comments.markerFree_blank`).
-/

namespace SwiftAccess

namespace Comments

open Text Lexer

/-- Where a scan for comments stands. -/
inductive Mode where
  /-- Outside comments. -/
  | code
  /-- Inside a block comment. -/
  | block
  /-- Inside a `//` comment, up to the end of the line. -/
  | line
  deriving DecidableEq, Repr

/-- Each character of a text, scanned from mode `m`, with the mode it is read in, and the mode
after the text. -/
def scan : Mode → List Char → List (Char × Mode) × Mode
  | m, [] => ([], m)
  | .code, '/' :: '*' :: rest =>
    let r := scan .block rest
    (('/', .block) :: ('*', .block) :: r.1, r.2)
  | .code, '/' :: '/' :: rest =>
    let r := scan .line rest
    (('/', .line) :: ('/', .line) :: r.1, r.2)
  | .code, c :: rest =>
    let r := scan .code rest
    ((c, .code) :: r.1, r.2)
  | .block, '*' :: '/' :: rest =>
    let r := scan .code rest
    (('*', .block) :: ('/', .block) :: r.1, r.2)
  | .block, c :: rest =>
    let r := scan .block rest
    ((c, .block) :: r.1, r.2)
  | .line, c :: rest =>
    let r := scan .line rest
    ((c, .line) :: r.1, r.2)

/-- A scanned character as the blanked text has it: a comment character becomes a space. -/
def blankChar (p : Char × Mode) : Char := if p.2 = .code then p.1 else ' '

/-- A text with every comment character replaced by a space. -/
def blank (m : Mode) (cs : List Char) : List Char := (scan m cs).1.map blankChar

/-- The mode the next line starts in: a `//` comment ends with its line. -/
def Mode.next : Mode → Mode
  | .line => .code
  | m => m

/-- Consecutive lines with their comments blanked, the scan going on from line to line. -/
def blankLines : Mode → List (List Char) → List (List Char)
  | _, [] => []
  | m, l :: ls => blank m l :: blankLines (scan m l).2.next ls

/-- Whether every quote of a text, scanned from `m`, lies inside a `//` comment. -/
def quotesInLineComments (m : Mode) (cs : List Char) : Bool :=
  (scan m cs).1.all fun p => p.1 != '"' || p.2 == .line

/-! ## One step of the scan -/

@[simp] theorem scan_nil (m : Mode) : scan m [] = ([], m) := rfl

@[simp] theorem scan_code_open (rest : List Char) :
    scan .code ('/' :: '*' :: rest) =
      (('/', .block) :: ('*', .block) :: (scan .block rest).1, (scan .block rest).2) := rfl

@[simp] theorem scan_code_lineComment (rest : List Char) :
    scan .code ('/' :: '/' :: rest) =
      (('/', .line) :: ('/', .line) :: (scan .line rest).1, (scan .line rest).2) := rfl

/-- A character that starts no marker is code. -/
theorem scan_code_cons {c : Char} {rest : List Char}
    (h : c = '/' → rest.head? ≠ some '*' ∧ rest.head? ≠ some '/') :
    scan .code (c :: rest) = ((c, .code) :: (scan .code rest).1, (scan .code rest).2) := by
  rw [scan.eq_4 c rest]
  · rintro _ rfl rfl; simp at h
  · rintro _ rfl rfl; simp at h

@[simp] theorem scan_block_close (rest : List Char) :
    scan .block ('*' :: '/' :: rest) =
      (('*', .block) :: ('/', .block) :: (scan .code rest).1, (scan .code rest).2) := rfl

/-- Inside a block comment, a character that starts no `*/` stays in the comment. -/
theorem scan_block_cons {c : Char} {rest : List Char} (h : c = '*' → rest.head? ≠ some '/') :
    scan .block (c :: rest) = ((c, .block) :: (scan .block rest).1, (scan .block rest).2) := by
  rw [scan.eq_6 c rest]
  rintro _ rfl rfl; simp at h

/-- The rest of a line after a `//` is comment. -/
@[simp] theorem scan_line (cs : List Char) : scan .line cs = (cs.map (·, .line), .line) := by
  induction cs with
  | nil => rfl
  | cons c cs ih => simp [scan, ih]

/-- A character that is neither `/` nor `*` is read in the mode the scan is in. -/
theorem scan_cons_of_ne (m : Mode) {c : Char} (hs : c ≠ '/') (ht : c ≠ '*') (rest : List Char) :
    scan m (c :: rest) = ((c, m) :: (scan m rest).1, (scan m rest).2) := by
  cases m with
  | code => exact scan_code_cons fun h => absurd h hs
  | block => exact scan_block_cons fun h => absurd h ht
  | line => simp

theorem ne_slash_of_isBlank {c : Char} (hc : isBlank c = true) : c ≠ '/' ∧ c ≠ '*' :=
  ⟨by rintro rfl; exact absurd hc (by decide), by rintro rfl; exact absurd hc (by decide)⟩

/-- The hypothesis under which the scan reads a character in a block comment as comment body. -/
theorem startsNoClose_of_cases {c : Char} {rest : List Char}
    (h1 : ∀ r, c = '*' → rest = '/' :: r → False) : c = '*' → rest.head? ≠ some '/' := by
  intro hs
  cases rest with
  | nil => simp
  | cons d t => intro hd; cases hd; exact h1 t hs rfl

/-! ## Joined texts -/

/-- Two texts meet where no marker can span the join: the first does not end with a character
that starts a marker, or the second does not begin with one that ends a marker. -/
def Seam (a b : List Char) : Prop :=
  (∀ c ∈ a.getLast?, c ≠ '/' ∧ c ≠ '*') ∨ (∀ c ∈ b.head?, c ≠ '/' ∧ c ≠ '*')

theorem Seam.of_apart {a b : List Char} (h : Apart a b) : Seam a b := by
  rcases h with h | h
  · left
    intro c hc
    rw [Option.mem_def.1 hc] at h
    exact ne_slash_of_isBlank (by simpa using h)
  · right
    intro c hc
    rw [Option.mem_def.1 hc] at h
    exact ne_slash_of_isBlank (by simpa using h)

theorem Seam.of_cons {c : Char} {a b : List Char} (h : Seam (c :: a) b) : Seam a b := by
  cases a with
  | nil => exact .inl (by simp)
  | cons d a =>
    rcases h with h | h
    · left
      intro e he
      exact h e (by rw [List.getLast?_cons_cons]; exact he)
    · exact .inr h

/-- In code, a character that starts no marker with what follows it in `a` starts none with the
start of `b` either. -/
theorem head_ne_of_seam {c : Char} {a b : List Char} (h : Seam (c :: a) b)
    (hc : c = '/' → a.head? ≠ some '*' ∧ a.head? ≠ some '/') :
    c = '/' → (a ++ b).head? ≠ some '*' ∧ (a ++ b).head? ≠ some '/' := by
  intro hs
  cases a with
  | cons d a => simpa using hc hs
  | nil =>
    subst hs
    rcases h with h | h
    · exact absurd rfl (h '/' rfl).1
    · cases b with
      | nil => simp
      | cons e b =>
        have := h e rfl
        show some e ≠ some '*' ∧ some e ≠ some '/'
        exact ⟨fun he => this.2 (Option.some.inj he), fun he => this.1 (Option.some.inj he)⟩

/-- In a block comment, a `*` that starts no `*/` in `a` starts none with the start of `b`
either. -/
theorem head_ne_of_seam_block {c : Char} {a b : List Char} (h : Seam (c :: a) b)
    (hc : c = '*' → a.head? ≠ some '/') : c = '*' → (a ++ b).head? ≠ some '/' := by
  intro hs
  cases a with
  | cons d a => simpa using hc hs
  | nil =>
    subst hs
    rcases h with h | h
    · exact absurd rfl (h '*' rfl).2
    · cases b with
      | nil => simp
      | cons e b =>
        have := h e rfl
        show some e ≠ some '/'
        exact fun he => this.1 (Option.some.inj he)

/-- Where two texts meet at a seam, the scan of the whole is the scan of the first and then the
scan of the second from where the first left off. -/
theorem scan_append (m : Mode) (a b : List Char) (h : Seam a b) :
    scan m (a ++ b) = ((scan m a).1 ++ (scan (scan m a).2 b).1, (scan (scan m a).2 b).2) := by
  fun_induction scan m a with
  | case1 m => rfl
  | case2 rest r ih => simp [r, ih h.of_cons.of_cons]
  | case3 rest r ih => simp [r, ih h.of_cons.of_cons]
  | case4 c rest h1 h2 r ih =>
    have hc := startsNoMarker_of_cases h1 h2
    rw [List.cons_append, scan_code_cons (head_ne_of_seam h hc), ih h.of_cons]
    rfl
  | case5 rest r ih => simp [r, ih h.of_cons.of_cons]
  | case6 c rest h1 r ih =>
    have hc := startsNoClose_of_cases h1
    rw [List.cons_append, scan_block_cons (head_ne_of_seam_block h hc), ih h.of_cons]
    rfl
  | case7 c rest r ih => simp [r]

/-- Once the scan is inside a `//` comment, the rest of the text is comment. -/
theorem scan_append_of_line {m : Mode} {a : List Char} (h : (scan m a).2 = .line)
    (b : List Char) : scan m (a ++ b) = ((scan m a).1 ++ b.map (·, .line), .line) := by
  fun_induction scan m a with
  | case1 m => subst h; simp
  | case2 rest r ih => simp [r, ih h]
  | case3 rest r ih => simp [r, ih h]
  | case4 c rest h1 h2 r ih =>
    -- the scan reaches a `//` after `c`, so `rest` is not empty and `c` meets nothing of `b`
    have hne : rest ≠ [] := by rintro rfl; simp [r] at h
    have hc := startsNoMarker_of_cases h1 h2
    rw [List.cons_append, scan_code_cons (by rwa [List.head?_append_of_ne_nil _ hne]), ih h]
    rfl
  | case5 rest r ih => simp [r, ih h]
  | case6 c rest h1 r ih =>
    have hne : rest ≠ [] := by rintro rfl; simp [r] at h
    have hc := startsNoClose_of_cases h1
    rw [List.cons_append, scan_block_cons (by rwa [List.head?_append_of_ne_nil _ hne]), ih h]
    rfl
  | case7 c rest r ih => simp [r]

/-- A scan that ends inside a `//` comment, from outside one, went through a `//`. -/
theorem exists_lineComment_of_scan {m : Mode} {a : List Char} (h : (scan m a).2 = .line)
    (hm : m ≠ .line) : ∃ p r, a = p ++ '/' :: '/' :: r := by
  fun_induction scan m a with
  | case1 m => exact absurd h hm
  | case2 rest r ih =>
    obtain ⟨p, q, rfl⟩ := ih h (by simp)
    exact ⟨'/' :: '*' :: p, q, rfl⟩
  | case3 rest r ih => exact ⟨[], rest, rfl⟩
  | case4 c rest h1 h2 r ih =>
    obtain ⟨p, q, rfl⟩ := ih h hm
    exact ⟨c :: p, q, rfl⟩
  | case5 rest r ih =>
    obtain ⟨p, q, rfl⟩ := ih h (by simp)
    exact ⟨'*' :: '/' :: p, q, rfl⟩
  | case6 c rest h1 r ih =>
    obtain ⟨p, q, rfl⟩ := ih h hm
    exact ⟨c :: p, q, rfl⟩
  | case7 c rest r ih => exact absurd rfl hm

/-! ## Block comments -/

/-- The first `*/` of a text is at its start, or after a first character that starts none. -/
theorem breakOn?_close_cons {c : Char} {cs pre after : List Char}
    (h : breakOn? blockCloseMark (c :: cs) = some (pre, after)) :
    (c = '*' ∧ cs = '/' :: after ∧ pre = []) ∨
      (c = '*' → cs.head? ≠ some '/') ∧
        ∃ pre', breakOn? blockCloseMark cs = some (pre', after) ∧ pre = c :: pre' := by
  by_cases hp : blockCloseMark.isPrefixOf (c :: cs) = true
  · -- the comment closes right here
    left
    obtain ⟨rest, rfl, rfl⟩ : ∃ rest, c = '*' ∧ cs = '/' :: rest := by
      cases cs with
      | nil => simp [blockCloseMark] at hp
      | cons d rest =>
        simp [blockCloseMark] at hp
        obtain ⟨rfl, rfl⟩ := hp
        exact ⟨rest, rfl, rfl⟩
    simp only [breakOn?, hp, if_true, Option.some.injEq, Prod.mk.injEq] at h
    obtain ⟨rfl, rfl⟩ := h
    exact ⟨rfl, rfl, rfl⟩
  · right
    simp only [breakOn?, hp, Bool.false_eq_true, if_false] at h
    obtain ⟨⟨pre', after'⟩, h', he⟩ := Option.map_eq_some_iff.1 h
    simp only [Prod.mk.injEq] at he
    obtain ⟨rfl, rfl⟩ := he
    refine ⟨?_, pre', h', rfl⟩
    rintro rfl hd
    cases cs with
    | nil => simp at hd
    | cons d t => simp at hd; subst hd; simp [blockCloseMark] at hp

/-- A text with no `*/` starts none at its first character and has none after it. -/
theorem breakOn?_close_cons_none {c : Char} {cs : List Char}
    (h : breakOn? blockCloseMark (c :: cs) = none) :
    (c = '*' → cs.head? ≠ some '/') ∧ breakOn? blockCloseMark cs = none := by
  by_cases hp : blockCloseMark.isPrefixOf (c :: cs) = true
  · simp [breakOn?, hp] at h
  · simp only [breakOn?, hp, Bool.false_eq_true, if_false, Option.map_eq_none_iff] at h
    refine ⟨?_, h⟩
    rintro rfl hd
    cases cs with
    | nil => simp at hd
    | cons d t => simp at hd; subst hd; simp [blockCloseMark] at hp

/-- A block comment ends at the first `*/`. -/
theorem scan_block_of_breakOn : ∀ {cs pre after : List Char},
    breakOn? blockCloseMark cs = some (pre, after) →
      scan .block cs = ((pre ++ ['*', '/']).map (·, .block) ++ (scan .code after).1,
        (scan .code after).2)
  | [], _, _, h => by simp [breakOn?, blockCloseMark] at h
  | c :: cs, pre, after, h => by
    rcases breakOn?_close_cons h with ⟨rfl, rfl, rfl⟩ | ⟨hc, pre', h', rfl⟩
    · simp
    · rw [scan_block_cons hc, scan_block_of_breakOn h']
      simp

/-- A block comment with no `*/` after it runs to the end of the text. -/
theorem scan_block_of_breakOn_none : ∀ {cs : List Char},
    breakOn? blockCloseMark cs = none → scan .block cs = (cs.map (·, .block), .block)
  | [], _ => rfl
  | c :: cs, h => by
    obtain ⟨hc, h'⟩ := breakOn?_close_cons_none h
    rw [scan_block_cons hc, scan_block_of_breakOn_none h']
    simp

/-! ## The blanked text -/

theorem blank_code_open (rest : List Char) :
    blank .code ('/' :: '*' :: rest) = ' ' :: ' ' :: blank .block rest := by
  simp [blank, blankChar]

theorem blank_code_lineComment (rest : List Char) :
    blank .code ('/' :: '/' :: rest) = ' ' :: ' ' :: blank .line rest := by
  simp [blank, blankChar]

theorem blank_code_cons {c : Char} {rest : List Char}
    (h : c = '/' → rest.head? ≠ some '*' ∧ rest.head? ≠ some '/') :
    blank .code (c :: rest) = c :: blank .code rest := by
  simp [blank, scan_code_cons h, blankChar]

theorem blank_block_close (rest : List Char) :
    blank .block ('*' :: '/' :: rest) = ' ' :: ' ' :: blank .code rest := by
  simp [blank, blankChar]

theorem blank_block_cons {c : Char} {rest : List Char} (h : c = '*' → rest.head? ≠ some '/') :
    blank .block (c :: rest) = ' ' :: blank .block rest := by
  simp [blank, scan_block_cons h, blankChar]

/-- The blanked rest of a line after a `//` is white space. -/
@[simp] theorem blank_line (cs : List Char) : blank .line cs = List.replicate cs.length ' ' := by
  simp [blank, blankChar, Function.comp_def, List.map_const']

@[simp] theorem length_blank (m : Mode) (cs : List Char) : (blank m cs).length = cs.length := by
  fun_induction scan m cs with
  | case1 m => rfl
  | case2 rest r ih => simp [blank_code_open, ih]
  | case3 rest r ih => simp [blank_code_lineComment]
  | case4 c rest h1 h2 r ih => simp [blank_code_cons (startsNoMarker_of_cases h1 h2), ih]
  | case5 rest r ih => simp [blank_block_close, ih]
  | case6 c rest h1 r ih => simp [blank_block_cons (startsNoClose_of_cases h1), ih]
  | case7 c rest r ih => simp

theorem blank_append (m : Mode) {a b : List Char} (h : Seam a b) :
    blank m (a ++ b) = blank m a ++ blank (scan m a).2 b := by
  simp [blank, scan_append m a b h]

theorem blank_cons_blank (m : Mode) {c : Char} (hc : isBlank c = true) (rest : List Char) :
    ∃ d, isBlank d = true ∧ blank m (c :: rest) = d :: blank m rest := by
  refine ⟨if m = .code then c else ' ', ?_, ?_⟩
  · split
    · exact hc
    · decide
  · simp [blank, scan_cons_of_ne m (ne_slash_of_isBlank hc).1 (ne_slash_of_isBlank hc).2,
      blankChar]

/-- Whether a text holds no comment marker: no `/` is followed by `*` or `/`. -/
def markerFree : List Char → Bool
  | '/' :: '*' :: _ => false
  | '/' :: '/' :: _ => false
  | _ :: rest => markerFree rest
  | [] => true

theorem markerFree_cons {c : Char} {rest : List Char} :
    markerFree (c :: rest) = true ↔
      (c = '/' → rest.head? ≠ some '*' ∧ rest.head? ≠ some '/') ∧ markerFree rest = true := by
  by_cases hm : c = '/' ∧ (rest.head? = some '*' ∨ rest.head? = some '/')
  · obtain ⟨rfl, h⟩ := hm
    cases rest with
    | nil => simp at h
    | cons d t =>
      simp only [List.head?_cons, Option.some.injEq] at h
      rcases h with rfl | rfl <;> simp [markerFree]
  · have h1 : c = '/' → rest.head? ≠ some '*' ∧ rest.head? ≠ some '/' :=
      fun hc => ⟨fun h => hm ⟨hc, .inl h⟩, fun h => hm ⟨hc, .inr h⟩⟩
    rw [markerFree.eq_3 c rest (fun t hc ht => hm ⟨hc, .inl (by rw [ht]; rfl)⟩)
      (fun t hc ht => hm ⟨hc, .inr (by rw [ht]; rfl)⟩)]
    exact ⟨fun h => ⟨h1, h⟩, fun h => h.2⟩

/-- A character that starts no marker in code is where the blanked text starts. -/
theorem head?_blank_code {d : Char} (hd : d ≠ '/') (t : List Char) :
    (blank .code (d :: t)).head? = some d := by
  rw [blank_code_cons (fun h => absurd h hd)]
  rfl

/-- A blanked text holds no comment marker. -/
theorem markerFree_blank (m : Mode) (cs : List Char) : markerFree (blank m cs) = true := by
  fun_induction scan m cs with
  | case1 m => rfl
  | case2 rest r ih => simp [blank_code_open, markerFree_cons, ih]
  | case3 rest r ih => simpa [blank_code_lineComment, markerFree_cons] using ih
  | case4 c rest h1 h2 r ih =>
    have hc := startsNoMarker_of_cases h1 h2
    rw [blank_code_cons hc]
    refine markerFree_cons.2 ⟨fun hs => ?_, ih⟩
    -- after a code `/`, the next character starts no marker, so it is kept as it is
    obtain ⟨h₁, h₂⟩ := hc hs
    cases rest with
    | nil => simp [blank]
    | cons d t =>
      have hd : d ≠ '/' := by simpa using h₂
      rw [head?_blank_code hd t]
      exact ⟨h₁, h₂⟩
  | case5 rest r ih => simp [blank_block_close, markerFree_cons, ih]
  | case6 c rest h1 r ih =>
    simp [blank_block_cons (startsNoClose_of_cases h1), markerFree_cons, ih]
  | case7 c rest r ih => simpa [List.replicate_succ, markerFree_cons] using ih

/-! ## Quotes -/

/-- A quote the scan reads in a mode is read there: it starts and ends no marker. -/
theorem mem_scan_quote (m : Mode) (z : List Char) : ('"', m) ∈ (scan m ('"' :: z)).1 := by
  rw [scan_cons_of_ne m (by decide) (by decide)]
  exact List.mem_cons_self ..

/-- If every quote lies in a `//` comment, the scan is in one at the first quote. -/
theorem scan_line_of_quote {m : Mode} {a z : List Char}
    (h : quotesInLineComments m (a ++ '"' :: z) = true) : (scan m a).2 = .line := by
  have hseam : Seam a ('"' :: z) := .inr fun c hc => by
    cases hc
    exact ⟨by decide, by decide⟩
  have hmem : ('"', (scan m a).2) ∈ (scan m (a ++ '"' :: z)).1 := by
    rw [scan_append m a _ hseam]
    exact List.mem_append_right _ (mem_scan_quote _ z)
  have := List.all_eq_true.1 h _ hmem
  simpa using this

/-- If every quote lies in a `//` comment, the blanked text holds no quote. -/
theorem quote_not_mem_blank {m : Mode} {cs : List Char} (h : quotesInLineComments m cs = true) :
    '"' ∉ blank m cs := by
  intro hq
  obtain ⟨p, hp, he⟩ := List.mem_map.1 hq
  have hpq := List.all_eq_true.1 h p hp
  simp only [blankChar] at he
  split at he
  · next hc => simp [hc, he] at hpq
  · exact absurd he (by decide)

/-- A pattern occurs in every text that holds it. -/
theorem occursIn_append (pat p r : List Char) : occursIn pat (p ++ pat ++ r) = true := by
  induction p with
  | nil =>
    cases pat with
    | nil => cases r <;> simp [occursIn, breakOn?]
    | cons q pat => simp [occursIn, breakOn?, List.isPrefixOf_iff_prefix]
  | cons c p ih =>
    simp only [occursIn, Option.isSome_iff_ne_none] at ih ⊢
    simp only [List.cons_append, breakOn?]
    split
    · simp
    · simpa [Option.map_eq_none_iff] using ih

end Comments

end SwiftAccess
