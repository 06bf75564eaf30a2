import SwiftAccess.Buffer

/-!
# Lines of a classified buffer

How a buffer's parts are found line by line. The classification of line `i` is `classify` applied
in the scope that the lines above it leave (`Buffer.classes_getElem?`), a line has a new text only
when it exists, is selected and is eligible (`Buffer.mem_newLines`), and the rewritten buffer keeps
every line that has no new text (`Buffer.rewritten_getElem?_of_not_mem`).
-/

namespace SwiftAccess

theorem LineSet.mem_of_mem_dedupSorted {x : Nat} :
    ∀ {l : List Nat}, x ∈ LineSet.dedupSorted l → x ∈ l
  | [], h => h
  | [_], h => h
  | a :: b :: rest, h => by
    simp only [LineSet.dedupSorted] at h
    split at h
    · exact List.mem_cons_of_mem _ (mem_of_mem_dedupSorted h)
    · rcases List.mem_cons.1 h with rfl | h
      · exact List.mem_cons_self ..
      · exact List.mem_cons_of_mem _ (mem_of_mem_dedupSorted h)

theorem LineSet.mem_dedupSorted {x : Nat} : ∀ {l : List Nat}, x ∈ LineSet.dedupSorted l ↔ x ∈ l
  | [] => Iff.rfl
  | [_] => Iff.rfl
  | a :: b :: rest => by
    simp only [LineSet.dedupSorted]
    split
    · next hab =>
      subst hab
      rw [mem_dedupSorted]
      simp
    · rw [List.mem_cons, mem_dedupSorted, List.mem_cons (l := rest)]
      simp

/-- A sorted list without repeats is strictly increasing. -/
theorem LineSet.pairwise_dedupSorted :
    ∀ {l : List Nat}, l.Pairwise (· ≤ ·) → (LineSet.dedupSorted l).Pairwise (· < ·)
  | [], _ => List.Pairwise.nil
  | [_], _ => List.pairwise_singleton _ _
  | a :: b :: rest, h => by
    have hb : (b :: rest).Pairwise (· ≤ ·) := h.of_cons
    simp only [LineSet.dedupSorted]
    split
    · exact pairwise_dedupSorted hb
    · next hab =>
      refine List.pairwise_cons.2 ⟨fun x hx => ?_, pairwise_dedupSorted hb⟩
      have hax : a ≤ x := (List.pairwise_cons.1 h).1 x (mem_dedupSorted.1 hx)
      have hbx : b ≤ x := by
        rcases List.mem_cons.1 (mem_dedupSorted.1 hx) with rfl | hx'
        · exact Nat.le_refl _
        · exact (List.pairwise_cons.1 hb).1 x hx'
      have hab' : a ≤ b := (List.pairwise_cons.1 h).1 b (List.mem_cons_self ..)
      omega

theorem LineSet.mem_ofList {x : Nat} {ns : List Nat} : x ∈ LineSet.ofList ns ↔ x ∈ ns := by
  simp [LineSet.ofList, LineSet.mem_dedupSorted]

/-- The selected numbers are visited in increasing order, each once. -/
theorem LineSet.pairwise_ofList (ns : List Nat) : (LineSet.ofList ns).Pairwise (· < ·) := by
  apply LineSet.pairwise_dedupSorted
  have h : ns.mergeSort.Pairwise (fun a b => decide (a ≤ b) = true) :=
    List.pairwise_mergeSort (fun a b c hab hbc => by simp only [decide_eq_true_eq] at *; omega)
      (fun a b => by simp only [Bool.or_eq_true, decide_eq_true_eq]; omega) ns
  exact h.imp fun hab => by simpa using hab

/-- The scope after the first `i` lines of tokens, folded from `s`. -/
def scopeAfter (s : Scope) (tss : List (List Token)) (i : Nat) : Scope :=
  (tss.take i).foldl Scope.addLine s

theorem classifyLines_getElem? :
    ∀ (s : Scope) (tss : List (List Token)) (i : Nat),
      (classifyLines s tss)[i]? = tss[i]?.map fun ts => (classify (scopeAfter s tss i) ts).1
  | _, [], _ => rfl
  | s, ts :: tss, 0 => rfl
  | s, ts :: tss, i + 1 => by
    simp only [classifyLines, List.getElem?_cons_succ, scopeAfter, List.take_succ_cons,
      List.foldl_cons]
    exact classifyLines_getElem? _ tss i

theorem classifyLines_length :
    ∀ (s : Scope) (tss : List (List Token)), (classifyLines s tss).length = tss.length
  | _, [] => rfl
  | s, ts :: tss => by simp [classifyLines, classifyLines_length _ tss]

theorem Lexer.scanLines_length :
    ∀ (st : Lexer.State) (lines : List (List Char)), (Lexer.scanLines st lines).length = lines.length
  | _, [] => rfl
  | st, l :: ls => by simp [Lexer.scanLines, Lexer.scanLines_length _ ls]

theorem Lexer.tokensOf_length (lines : List String) : (Lexer.tokensOf lines).length = lines.length := by
  simp [Lexer.tokensOf, Lexer.scanLines_length]

/-- The lexer state that the first `i` lines of a text leave, lexed from the start of a file. -/
def Lexer.stateBefore (lines : List String) (i : Nat) : Lexer.State :=
  ((lines.take i).map String.toList).foldl (fun st l => (Lexer.scanLine st l).2) .initial

/-- The state after one more line is the state that line leaves. -/
theorem Lexer.stateBefore_succ (lines : List String) (i : Nat) :
    Lexer.stateBefore lines (i + 1) = match lines[i]? with
      | some l => (Lexer.scanLine (Lexer.stateBefore lines i) l.toList).2
      | none => Lexer.stateBefore lines i := by
  simp only [Lexer.stateBefore]
  cases h : lines[i]? with
  | none =>
    rw [List.getElem?_eq_none_iff] at h
    rw [List.take_of_length_le (by omega), List.take_of_length_le h]
  | some l =>
    rw [List.take_add_one, h, Option.toList_some, List.map_append, List.foldl_append]
    rfl

/-- Lines that each leave the lexer in the state that the line in their place leaves are lexed
from the same states. -/
theorem Lexer.stateBefore_eq_of_states {ls ls' : List String} (hlen : ls'.length = ls.length)
    (h : ∀ i l l', ls[i]? = some l → ls'[i]? = some l' →
      (Lexer.scanLine (Lexer.stateBefore ls i) l'.toList).2 =
        (Lexer.scanLine (Lexer.stateBefore ls i) l.toList).2) :
    ∀ i, Lexer.stateBefore ls' i = Lexer.stateBefore ls i
  | 0 => rfl
  | i + 1 => by
    have ih := Lexer.stateBefore_eq_of_states hlen h i
    rw [Lexer.stateBefore_succ, Lexer.stateBefore_succ, ih]
    cases hl : ls[i]? with
    | none =>
      have : ls'[i]? = Option.none := by
        rw [List.getElem?_eq_none_iff] at hl ⊢
        omega
      rw [this]
    | some l =>
      obtain ⟨l', hl'⟩ : ∃ l', ls'[i]? = some l' := by
        have hi : i < ls'.length := by
          have := (List.getElem?_eq_some_iff.1 hl).1
          omega
        exact ⟨ls'[i], List.getElem?_eq_getElem hi⟩
      rw [hl']
      exact h i l l' hl hl'

theorem Lexer.scanLines_getElem? :
    ∀ (st : Lexer.State) (lines : List (List Char)) (i : Nat),
      (Lexer.scanLines st lines)[i]? = lines[i]?.map
        (Lexer.scanLine ((lines.take i).foldl (fun st l => (Lexer.scanLine st l).2) st))
  | _, [], _ => rfl
  | st, l :: ls, 0 => rfl
  | st, l :: ls, i + 1 => by
    simp only [Lexer.scanLines, List.getElem?_cons_succ, List.take_succ_cons, List.foldl_cons]
    exact Lexer.scanLines_getElem? _ ls i

/-- The tokens of line `i`, lexed from the state the lines above it leave. -/
theorem Lexer.tokensOf_getElem? (lines : List String) (i : Nat) :
    (Lexer.tokensOf lines)[i]? =
      lines[i]?.map fun l => (Lexer.scanLine (Lexer.stateBefore lines i) l.toList).1 := by
  simp [Lexer.tokensOf, Lexer.scanLines_getElem?, Lexer.stateBefore, ← List.map_take,
    Function.comp_def]

namespace Buffer

/-- The classification of a buffer's line `i`, in the scope the lines above it leave. -/
theorem classes_getElem? (lines : List String) (i : Nat) :
    (ofLines lines).classes[i]? = (Lexer.tokensOf lines)[i]?.map fun ts =>
      (classify (scopeAfter {} (Lexer.tokensOf lines) i) ts).1 :=
  classifyLines_getElem? _ _ _

/-- A line's change is placed by the tokens it has in the state the lines above it leave. -/
theorem change_of_classes_getElem? {lines : List String} {i : Nat} {line : String}
    {c : Classification} (hline : lines[i]? = some line) (hclass : (ofLines lines).classes[i]? = some c) :
    c.change = LineChange.ofTokens (Lexer.scanLine (Lexer.stateBefore lines i) line.toList).1 := by
  rw [classes_getElem?, Lexer.tokensOf_getElem?, hline] at hclass
  simp only [Option.map_some, Option.some.injEq] at hclass
  rw [← hclass]
  rfl

theorem classes_length (lines : List String) : (ofLines lines).classes.length = lines.length := by
  simp [ofLines, classifyLines_length, Lexer.tokensOf_length]

/-- A line gets a new text only when it exists, is selected and is eligible; the text is the line
rewritten by its classification. -/
theorem mem_newLines {b : Buffer} {sel : List Nat} {change : AccessChange} {n : Nat} {text : String}
    (h : (n, text) ∈ b.newLines sel change) :
    n ∈ sel ∧ ∃ line c, b.lines[n]? = some line ∧ b.classes[n]? = some c ∧ c.eligible = true ∧
      text = rewriteLine line c change := by
  simp only [newLines, List.mem_filterMap] at h
  obtain ⟨m, hm, hsome⟩ := h
  split at hsome
  · next line c hl hc =>
    split at hsome
    · next he =>
      simp only [Option.some.injEq, Prod.mk.injEq] at hsome
      obtain ⟨rfl, rfl⟩ := hsome
      refine ⟨?_, line, c, hl, hc, he, rfl⟩
      simp only [LineSet.ofList] at hm
      exact (List.mem_mergeSort.1 (LineSet.mem_of_mem_dedupSorted hm))
    · cases hsome
  · cases hsome

/-- A selected line that exists and is eligible gets its rewritten text. -/
theorem mem_newLines_of {b : Buffer} {sel : List Nat} {change : AccessChange} {n : Nat}
    {line : String} {c : Classification} (hn : n ∈ sel) (hl : b.lines[n]? = some line)
    (hc : b.classes[n]? = some c) (he : c.eligible = true) :
    (n, rewriteLine line c change) ∈ b.newLines sel change := by
  simp only [newLines, List.mem_filterMap]
  exact ⟨n, LineSet.mem_ofList.2 hn, by simp [hl, hc, he]⟩

/-- New texts come by increasing line number. -/
theorem pairwise_newLines (b : Buffer) (sel : List Nat) (change : AccessChange) :
    (b.newLines sel change).Pairwise (fun u v => u.1 < v.1) := by
  -- the texts are made for the selected numbers in order, each numbered by its line
  have hnum : ∀ {F : Nat → Option (Nat × String)}, (∀ n u, F n = some u → u.1 = n) →
      ((LineSet.ofList sel).filterMap F).Pairwise (fun u v => u.1 < v.1) := fun hF => by
    rw [List.pairwise_filterMap]
    exact (LineSet.pairwise_ofList sel).imp fun {m n} hmn u hu v hv => by
      rw [hF m u hu, hF n v hv]
      exact hmn
  unfold newLines
  refine hnum fun n u h => ?_
  split at h
  · split at h
    · cases h; rfl
    · cases h
  · cases h

/-- An ineligible line gets no new text. -/
theorem not_mem_newLines_of_isEligible {b : Buffer} (sel : List Nat) (change : AccessChange)
    {n : Nat} (h : b.isEligible n = false) (text : String) : (n, text) ∉ b.newLines sel change := by
  intro hm
  obtain ⟨-, line, c, -, hc, he, -⟩ := mem_newLines hm
  simp [isEligible, hc, he] at h

theorem overlay_length :
    ∀ (n : Nat) (lines : List String) (us : List (Nat × String)),
      (overlay n lines us).length = lines.length
  | _, [], _ => rfl
  | _, _ :: _, [] => rfl
  | n, line :: rest, u :: us => by
    simp only [overlay]
    split <;> simp [overlay_length]

/-- Overlaying updates leaves alone every line that no update names. -/
theorem overlay_getElem?_of_not_mem :
    ∀ (n : Nat) (lines : List String) (us : List (Nat × String)) (m : Nat),
      (∀ u ∈ us, u.1 ≠ n + m) → (overlay n lines us)[m]? = lines[m]?
  | _, [], _, _, _ => rfl
  | _, _ :: _, [], _, _ => rfl
  | n, line :: rest, u :: us, m, h => by
    simp only [overlay]
    split
    · next hu =>
      cases m with
      | zero => exact absurd hu (h u (by simp))
      | succ m =>
        simp only [List.getElem?_cons_succ]
        exact overlay_getElem?_of_not_mem _ rest us m fun v hv => by
          have := h v (by simp [hv]); omega
    · cases m with
      | zero => rfl
      | succ m =>
        simp only [List.getElem?_cons_succ]
        exact overlay_getElem?_of_not_mem _ rest (u :: us) m fun v hv => by
          have := h v hv; omega

/-- Overlaying updates, by increasing number, puts each update's text at its line. -/
theorem overlay_getElem?_of_mem :
    ∀ (n : Nat) (lines : List String) (us : List (Nat × String)) (m : Nat) (text : String),
      us.Pairwise (fun u v => u.1 < v.1) → (∀ u ∈ us, n ≤ u.1) → (n + m, text) ∈ us →
        m < lines.length → (overlay n lines us)[m]? = some text
  | _, [], _, _, _, _, _, _, hm => absurd hm (Nat.not_lt_zero _)
  | _, _ :: _, [], _, _, _, _, hu, _ => absurd hu List.not_mem_nil
  | n, line :: rest, u :: us, m, text, hs, hn, hu, hm => by
    have hus := (List.pairwise_cons.1 hs).1
    simp only [overlay]
    split
    · next h1 =>
      cases m with
      | zero =>
        rcases List.mem_cons.1 hu with rfl | h
        · rfl
        · have := hus _ h
          simp only at this
          omega
      | succ m =>
        simp only [List.getElem?_cons_succ]
        refine overlay_getElem?_of_mem (n + 1) rest us m text hs.of_cons
          (fun v hv => by have := hus v hv; omega) ?_ (by simp at hm; omega)
        rcases List.mem_cons.1 hu with h | h
        · have := congrArg Prod.fst h
          simp only at this
          omega
        · rwa [Nat.add_right_comm, Nat.add_assoc]
    · next h1 =>
      cases m with
      | zero =>
        rcases List.mem_cons.1 hu with rfl | h
        · exact absurd rfl h1
        · have := hus _ h
          have := hn u (List.mem_cons_self ..)
          simp only at *
          omega
      | succ m =>
        simp only [List.getElem?_cons_succ]
        refine overlay_getElem?_of_mem (n + 1) rest (u :: us) m text hs
          (fun v hv => ?_) (by rwa [Nat.add_right_comm, Nat.add_assoc]) (by simp at hm; omega)
        rcases List.mem_cons.1 hv with rfl | hv
        · have := hn v (List.mem_cons_self ..)
          omega
        · have := hus v hv
          have := hn u (List.mem_cons_self ..)
          omega

/-- A line with a new text reads as that text in the rewritten buffer. -/
theorem rewritten_getElem?_of_mem {b : Buffer} {sel : List Nat} {change : AccessChange}
    {n : Nat} {text : String} (h : (n, text) ∈ b.newLines sel change) :
    (b.rewritten sel change)[n]? = some text := by
  obtain ⟨-, line, -, hl, -⟩ := mem_newLines h
  refine overlay_getElem?_of_mem 0 b.lines _ n text (pairwise_newLines b sel change)
    (fun _ _ => Nat.zero_le _) (by rwa [Nat.zero_add]) ?_
  exact (List.getElem?_eq_some_iff.1 hl).1

/-- A line with no new text reads the same in the rewritten buffer. -/
theorem rewritten_getElem?_of_not_mem {b : Buffer} {sel : List Nat} {change : AccessChange}
    {n : Nat} (h : ∀ text, (n, text) ∉ b.newLines sel change) :
    (b.rewritten sel change)[n]? = b.lines[n]? :=
  overlay_getElem?_of_not_mem 0 b.lines _ n fun ⟨m, t⟩ hu heq => by
    simp only [Nat.zero_add] at heq
    subst heq
    exact h t hu

theorem rewritten_length (b : Buffer) (sel : List Nat) (change : AccessChange) :
    (b.rewritten sel change).length = b.lines.length :=
  overlay_length 0 b.lines _

/-- Line `n` of a rewritten buffer: the line rewritten by its classification when it is selected
and eligible, the line itself otherwise. -/
theorem rewritten_getElem? {b : Buffer} (sel : List Nat) (change : AccessChange) {n : Nat}
    {line : String} {c : Classification} (hl : b.lines[n]? = some line)
    (hc : b.classes[n]? = some c) :
    (b.rewritten sel change)[n]? =
      some (if n ∈ sel ∧ c.eligible = true then rewriteLine line c change else line) := by
  by_cases h : n ∈ sel ∧ c.eligible = true
  · rw [if_pos h]
    exact rewritten_getElem?_of_mem (mem_newLines_of h.1 hl hc h.2)
  · rw [if_neg h, rewritten_getElem?_of_not_mem, hl]
    intro text hm
    obtain ⟨hn, line', c', -, hc', he, -⟩ := mem_newLines hm
    rw [hc] at hc'
    cases hc'
    exact h ⟨hn, he⟩

end Buffer

end SwiftAccess
