import SwiftAccess.Host.Invocation
import SwiftAccess.Proofs.MemberLevel

/-!
# Writing a buffer back as text

A source text reaches the rewriter cut into lines (`Text.lines`, through
`Host.Invocation.ofSource`), and the rewritten buffer is written back by joining its lines with
line feeds (`Host.Outcome.text`). This module says what that round trip does to the text.

`Text.layout` cuts a text into its lines, each with the break that ends it: a line feed, a carriage
return and a line feed, or nothing after a last line that has no break. `Text.render` writes a
layout out again, and `Text.render_layout` says that this gives back the text, every character
kept. The texts of the layout are the lines the rewriter reads (`Text.map_text_layout`).

The main statement is `performed_text_relaid`: the text of a performed command is the source's
layout with the text of each changed line replaced by its new text and each break written as a
single line feed. So a source whose breaks are all line feeds comes back with only its changed
lines changed, and a break of a carriage return and a line feed comes back as a line feed
(`crlf_break_written_lf`).
-/

namespace SwiftAccess

namespace Text

/-- A line of a text and the break that ends it. -/
structure LineSpan where
  /-- The line's characters, without its break. -/
  text : List Char
  /-- The break after the line: a line feed, a carriage return and a line feed, or nothing for a
  last line without a break. -/
  ending : List Char
  deriving DecidableEq, Repr

/-- The break after the characters `pre` that precede a line feed: a carriage return right before
the line feed belongs to the break. -/
def breakAfter (pre : List Char) : List Char :=
  if pre.getLast? = some '\r' then ['\r', '\n'] else ['\n']

/-- A text cut into its lines, each with the break that ends it. -/
def layout (cs : List Char) : List LineSpan :=
  match h : cs.dropWhile (· ≠ '\n') with
  | [] => if cs.isEmpty then [] else [⟨cs, []⟩]
  | _ :: after =>
    let pre := cs.takeWhile (· ≠ '\n')
    ⟨dropReturn pre, breakAfter pre⟩ :: layout after
termination_by cs.length
decreasing_by
  have := (List.dropWhile_sublist (l := cs) (fun c => decide (c ≠ '\n'))).length_le
  rw [h] at this
  simp only [List.length_cons] at this
  omega

/-- A layout written out: each line followed by its break. -/
def render (ls : List LineSpan) : List Char := ls.flatMap fun l => l.text ++ l.ending

/-- The line with its break, if it has one, written as a single line feed. -/
def LineSpan.withLf (l : LineSpan) : LineSpan :=
  { l with ending := if l.ending = [] then [] else ['\n'] }

/-- Where the first line feed of a text stands: the text is the characters before it, the line
feed, and the rest. -/
theorem eq_of_dropWhile_eq_cons {cs after : List Char} {c : Char}
    (h : cs.dropWhile (· ≠ '\n') = c :: after) :
    c = '\n' ∧ cs = cs.takeWhile (· ≠ '\n') ++ '\n' :: after := by
  have hc : c = '\n' := by
    have := List.head?_dropWhile_not (fun c => decide (c ≠ '\n')) cs
    rw [h] at this
    simpa using this
  subst hc
  refine ⟨rfl, ?_⟩
  conv => lhs; rw [← List.takeWhile_append_dropWhile (p := fun c => decide (c ≠ '\n')) (l := cs)]
  rw [h]

/-- The characters before a line feed, without the carriage return of the break, and the break. -/
theorem dropReturn_append_breakAfter (pre : List Char) :
    dropReturn pre ++ breakAfter pre = pre ++ ['\n'] := by
  unfold dropReturn breakAfter
  split
  · next h =>
    obtain ⟨ys, rfl⟩ := List.getLast?_eq_some_iff.1 h
    simp
  · next h => rw [if_neg h]

/-- Writing out a text's layout gives the text back. -/
theorem render_layout (cs : List Char) : render (layout cs) = cs := by
  fun_induction layout cs with
  | case1 cs h he => simpa [render] using he.symm
  | case2 cs h he => simp [render]
  | case3 cs c after h pre ih =>
    obtain ⟨rfl, hcs⟩ := eq_of_dropWhile_eq_cons h
    have e : render (layout after) = after := ih
    simp only [render, List.flatMap_cons] at e ⊢
    rw [e, dropReturn_append_breakAfter]
    simpa [pre] using hcs.symm

theorem linesOf_of_dropWhile_eq_nil {cs : List Char} (h : cs.dropWhile (· ≠ '\n') = []) :
    linesOf cs = if cs.isEmpty then [] else [cs] := by
  rw [linesOf]
  split
  · rfl
  · next h' => simp only [ne_eq, decide_not] at h h'; simp [h] at h'

theorem linesOf_of_dropWhile_eq_cons {cs after : List Char} {c : Char}
    (h : cs.dropWhile (· ≠ '\n') = c :: after) :
    linesOf cs = dropReturn (cs.takeWhile (· ≠ '\n')) :: linesOf after := by
  rw [linesOf]
  split
  · next h' => simp only [ne_eq, decide_not] at h h'; simp [h] at h'
  · next h' =>
    simp only [ne_eq, decide_not] at h h'
    rw [h] at h'
    cases h'
    rfl

/-- The lines of a layout are the lines the rewriter reads. -/
theorem map_text_layout (cs : List Char) : (layout cs).map LineSpan.text = linesOf cs := by
  fun_induction layout cs with
  | case1 cs h he => simp [linesOf_of_dropWhile_eq_nil h, he]
  | case2 cs h he => simp [linesOf_of_dropWhile_eq_nil h, he]
  | case3 cs c after h pre ih => rw [linesOf_of_dropWhile_eq_cons h, List.map_cons, ih]

theorem layout_nil : layout [] = [] := by
  rw [layout]
  split
  · rfl
  · next h => simp at h

theorem layout_eq_nil_iff {cs : List Char} : layout cs = [] ↔ cs = [] := by
  constructor
  · intro h
    rw [← render_layout cs, h]
    rfl
  · rintro rfl
    exact layout_nil

/-- A text in which the scan finds no line feed does not end with one. -/
theorem getLast?_ne_lf_of_dropWhile_eq_nil {cs : List Char} (h : cs.dropWhile (· ≠ '\n') = []) :
    cs.getLast? ≠ some '\n' := by
  intro hl
  have hall : cs.takeWhile (· ≠ '\n') = cs := by
    have := List.takeWhile_append_dropWhile (p := fun c => decide (c ≠ '\n')) (l := cs)
    rwa [h, List.append_nil] at this
  have := List.all_eq_true.1 (hall ▸ List.all_takeWhile) '\n' (List.mem_of_getLast? hl)
  simp at this

/-- Texts, one for each line of a layout, joined by line feeds and ended by one when the laid out
text ends with a line feed: the layout written out with these texts and every break a line feed. -/
theorem intercalate_eq_render (cs : List Char) :
    ∀ ts : List (List Char), ts.length = (layout cs).length →
      ['\n'].intercalate ts ++ (if cs.getLast? = some '\n' then ['\n'] else []) =
        render (List.zipWith (fun t l => LineSpan.withLf ⟨t, l.ending⟩) ts (layout cs)) := by
  fun_induction layout cs with
  | case1 cs h he =>
    intro ts hts
    obtain rfl := List.isEmpty_iff.1 he
    rw [List.length_eq_zero_iff.1 hts]
    rfl
  | case2 cs h he =>
    -- one line and no break
    intro ts hts
    obtain ⟨t, rfl⟩ : ∃ t, ts = [t] := List.length_eq_one_iff.1 hts
    simp [render, LineSpan.withLf, getLast?_ne_lf_of_dropWhile_eq_nil h]
  | case3 cs c after h pre ih =>
    intro ts hts
    obtain ⟨rfl, hcs⟩ := eq_of_dropWhile_eq_cons h
    obtain ⟨t, ts, rfl⟩ : ∃ t ts', ts = t :: ts' := List.exists_cons_of_length_eq_add_one hts
    have hts' : ts.length = (layout after).length := by simpa using hts
    have hbreak : breakAfter pre ≠ [] := by unfold breakAfter; split <;> simp
    have hrest : render (List.zipWith (fun t l => LineSpan.withLf ⟨t, l.ending⟩) ts (layout after)) =
        ['\n'].intercalate ts ++ (if after.getLast? = some '\n' then ['\n'] else []) := (ih ts hts').symm
    simp only [List.zipWith_cons_cons, render, List.flatMap_cons] at hrest ⊢
    rw [hrest]
    simp only [LineSpan.withLf, hbreak, if_false]
    cases after with
    | nil =>
      -- the line feed ends the text
      have : ts = [] := List.length_eq_zero_iff.1 (by simpa [layout_nil] using hts')
      subst this
      rw [hcs]
      simp
    | cons a as =>
      have hne : ts ≠ [] := by
        intro e
        subst e
        exact List.cons_ne_nil a as (layout_eq_nil_iff.1 (List.length_eq_zero_iff.1 hts'.symm))
      rw [List.intercalate_cons_of_ne_nil hne, hcs]
      simp

end Text

namespace Buffer

/-- A line is changed when a new text names it and differs from the line. -/
theorem mem_changedLines {b : Buffer} {us : List (Nat × String)} {n : Nat} :
    n ∈ b.changedLines us ↔ ∃ t, (n, t) ∈ us ∧ ∃ line, b.lines[n]? = some line ∧ line ≠ t := by
  simp only [changedLines, List.mem_map, List.mem_filter]
  constructor
  · rintro ⟨⟨m, t⟩, ⟨hu, hp⟩, rfl⟩
    refine ⟨t, hu, ?_⟩
    split at hp
    · next line hl => exact ⟨line, hl, by simpa using hp⟩
    · cases hp
  · rintro ⟨t, hu, line, hl, hne⟩
    exact ⟨(n, t), ⟨hu, by simp [hl, hne]⟩, rfl⟩

/-- In a list of updates by increasing number, looking a number up finds its update. -/
theorem lookup_of_mem {n : Nat} {t : String} :
    ∀ {us : List (Nat × String)}, us.Pairwise (fun u v => u.1 < v.1) → (n, t) ∈ us →
      us.lookup n = some t
  | [], _, h => absurd h List.not_mem_nil
  | (m, t') :: us, hs, h => by
    rw [List.lookup_cons]
    rcases List.mem_cons.1 h with e | h
    · cases e
      simp
    · have hlt : m < n := (List.pairwise_cons.1 hs).1 _ h
      rw [show (n == m) = false from by simp; omega]
      exact lookup_of_mem hs.of_cons h

/-- Line `n` after a change: the new text of a changed line, the buffer's line otherwise. -/
theorem rewritten_getElem?_changed (b : Buffer) (sel : List Nat) (change : AccessChange) (n : Nat) :
    (b.rewritten sel change)[n]? =
      if n ∈ b.changedLines (b.newLines sel change) then (b.newLines sel change).lookup n
      else b.lines[n]? := by
  split
  · next hc =>
    obtain ⟨t, hu, -⟩ := mem_changedLines.1 hc
    rw [rewritten_getElem?_of_mem hu, lookup_of_mem (pairwise_newLines b sel change) hu]
  · next hc =>
    by_cases hu : ∃ t, (n, t) ∈ b.newLines sel change
    · -- a new text that is not a change is the line itself
      obtain ⟨t, hu⟩ := hu
      obtain ⟨-, line, -, hl, -⟩ := mem_newLines hu
      have hlt : line = t :=
        Classical.byContradiction fun hne => hc (mem_changedLines.2 ⟨t, hu, line, hl, hne⟩)
      rw [rewritten_getElem?_of_mem hu, hl, hlt]
    · exact rewritten_getElem?_of_not_mem fun t ht => hu ⟨t, ht⟩

end Buffer

namespace Host

theorem copyChanged_length (us : List (Nat × String)) :
    ∀ (lines : List String) (ns : List Nat), (copyChanged lines us ns).length = lines.length
  | _, [] => rfl
  | lines, n :: ns => by
    rw [copyChanged, List.foldl_cons, ← copyChanged, copyChanged_length]
    split <;> simp

/-- Copying new texts in, line `i` reads its new text when `i` is copied, is a line and has one, and
the line itself otherwise. The order of the numbers does not matter: a line's new text is looked up
by its number. -/
theorem copyChanged_getElem? (us : List (Nat × String)) :
    ∀ (lines : List String) (ns : List Nat) (i : Nat),
      (copyChanged lines us ns)[i]? =
        if i ∈ ns ∧ i < lines.length then (us.lookup i).or lines[i]? else lines[i]?
  | _, [], _ => by simp [copyChanged]
  | lines, n :: ns, i => by
    rw [copyChanged, List.foldl_cons, ← copyChanged, copyChanged_getElem?]
    -- the first number sets its line, if it has a new text; the rest see the lines after that
    split
    · next text hn =>
      by_cases hi : i = n
      · subst hi
        by_cases hl : i < lines.length <;> simp [hn, hl]
      · simp [hi, Ne.symm hi]
    · next hn =>
      by_cases hi : i = n
      · subst hi
        simp [hn]
      · simp [hi]

/-- Copying in the new text of every changed line gives the rewritten buffer: the other new texts
are the lines themselves. -/
theorem copyChanged_eq_rewritten (b : Buffer) (sel : List Nat) (change : AccessChange) :
    copyChanged b.lines (b.newLines sel change) (b.changedLines (b.newLines sel change)) =
      b.rewritten sel change := by
  refine List.ext_getElem? fun i => ?_
  rw [copyChanged_getElem?, Buffer.rewritten_getElem?_changed]
  by_cases hc : i ∈ b.changedLines (b.newLines sel change)
  · obtain ⟨t, hu, line, hl, -⟩ := Buffer.mem_changedLines.1 hc
    have hi : i < b.lines.length := (List.getElem?_eq_some_iff.1 hl).1
    rw [if_pos ⟨hc, hi⟩, if_pos hc, Buffer.lookup_of_mem (Buffer.pairwise_newLines b sel change) hu]
    rfl
  · rw [if_neg (fun h => hc h.1), if_neg hc]

/-- A performed command keeps the number of lines, and line `i` of its buffer is the new text of
line `i` when that line changed, and the invocation's line `i` otherwise. -/
theorem perform_lines {config : HostConfig} {inv : Invocation} {o : Outcome}
    (h : perform config inv = .ok o) :
    o.lines.length = inv.lines.length ∧
      ∀ i, o.lines[i]? = if i ∈ o.changed then o.newLines.lookup i else inv.lines[i]? := by
  unfold perform at h
  split at h
  · cases h
  split at h
  · cases h
  dsimp only at h
  split at h
  · cases h
  split at h
  · -- an unknown command leaves the buffer alone
    cases h
    exact ⟨rfl, fun i => by simp⟩
  · next change _ =>
    cases h
    have e := copyChanged_eq_rewritten (Buffer.ofLines inv.lines) (selectedLines inv.selections) change
    dsimp only [Buffer.ofLines] at e ⊢
    rw [e]
    exact ⟨Buffer.overlay_length 0 inv.lines _,
      Buffer.rewritten_getElem?_changed (Buffer.ofLines inv.lines) _ change⟩

theorem Outcome.text_toList (o : Outcome) (b : Bool) :
    (o.text b).toList =
      ['\n'].intercalate (o.lines.map String.toList) ++ (if b && !o.lines.isEmpty then ['\n'] else []) := by
  unfold Outcome.text
  split <;> simp [*]

end Host

theorem endsWith_lf_iff (s : String) : s.endsWith "\n" = true ↔ s.toList.getLast? = some '\n' := by
  rw [String.endsWith_eq_endsWith_toSlice, String.Slice.endsWith_string_iff]
  simp [List.singleton_suffix_iff_getLast?_eq_some]

/-- The lines of a performed command's buffer, as characters, line by line: the new text of a
changed line, and otherwise the text of the source's line. -/
theorem perform_lines_eq_mapIdx {config : Host.HostConfig} {command contentType s : String}
    {sel : List Host.TextRange} {o : Host.Outcome}
    (h : Host.perform config (Host.Invocation.ofSource command contentType s sel) = .ok o) :
    o.lines.map String.toList = (Text.layout s.toList).mapIdx fun i l =>
      if i ∈ o.changed then ((o.newLines.lookup i).getD "").toList else l.text := by
  obtain ⟨hlen, hline⟩ := Host.perform_lines h
  have htexts := Text.map_text_layout s.toList
  have hlen' : (Text.layout s.toList).length = o.lines.length := by
    rw [hlen, Host.Invocation.ofSource, Text.lines, List.length_map, ← htexts, List.length_map]
  refine List.ext_getElem (by simp [hlen']) fun i h₁ h₂ => ?_
  have hi : i < o.lines.length := by simpa using h₁
  have hi' : i < (Text.linesOf s.toList).length := by
    rw [← htexts, List.length_map, hlen']
    exact hi
  have hsrc : (Text.layout s.toList)[i].text = (Text.linesOf s.toList)[i] := by
    simp only [← htexts, List.getElem_map]
  have e := hline i
  rw [List.getElem?_eq_getElem hi] at e
  rw [List.getElem_map, List.getElem_mapIdx]
  split
  · next hc =>
    rw [if_pos hc] at e
    rw [← e]
    rfl
  · next hc =>
    rw [if_neg hc, Host.Invocation.ofSource, Text.lines, List.getElem?_map,
      List.getElem?_eq_getElem (by rw [← htexts, List.length_map, hlen']; exact hi)] at e
    simp only [Option.map_some, Option.some.injEq] at e
    rw [e, hsrc, String.toList_ofList]

/-- The text of a performed command, ended by a line feed when the source ends with one: the
source's layout with the text of every changed line replaced by its new text and every line break
written as a single line feed, where the source itself is its layout written out with its own
breaks. So a source whose breaks are line feeds comes back with only its changed lines changed,
and a command that changes nothing gives back the source with its breaks written as line feeds. -/
theorem performed_text_relaid {config : Host.HostConfig} {command contentType s : String}
    {sel : List Host.TextRange} {o : Host.Outcome}
    (h : Host.perform config (Host.Invocation.ofSource command contentType s sel) = .ok o) :
    Text.render (Text.layout s.toList) = s.toList ∧
      (o.text (s.endsWith "\n")).toList =
        Text.render ((Text.layout s.toList).mapIdx fun i l => Text.LineSpan.withLf
          { l with text := if i ∈ o.changed then ((o.newLines.lookup i).getD "").toList else l.text }) ∧
      (o.isNoop = true →
        (o.text (s.endsWith "\n")).toList = Text.render ((Text.layout s.toList).map Text.LineSpan.withLf)) := by
  have hlines := perform_lines_eq_mapIdx h
  have hlen : (o.lines.map String.toList).length = (Text.layout s.toList).length := by
    rw [hlines, List.length_mapIdx]
  -- the final line feed is written exactly when the source ends with one
  have hfinal : (s.endsWith "\n" && !o.lines.isEmpty) = true ↔ s.toList.getLast? = some '\n' := by
    rw [Bool.and_eq_true, endsWith_lf_iff]
    constructor
    · exact fun h => h.1
    · intro hl
      refine ⟨hl, ?_⟩
      have hne : Text.layout s.toList ≠ [] := fun e =>
        by simp [Text.layout_eq_nil_iff.1 e] at hl
      have : o.lines ≠ [] := fun e => hne (List.length_eq_zero_iff.1 (by simpa [e] using hlen.symm))
      simpa using this
  have htext : (o.text (s.endsWith "\n")).toList =
      Text.render ((Text.layout s.toList).mapIdx fun i l => Text.LineSpan.withLf
        { l with text := if i ∈ o.changed then ((o.newLines.lookup i).getD "").toList else l.text }) := by
    have hif : (if (s.endsWith "\n" && !o.lines.isEmpty) = true then ['\n'] else []) =
        if s.toList.getLast? = some '\n' then ['\n'] else [] := by
      by_cases hl : s.toList.getLast? = some '\n'
      · rw [if_pos (hfinal.2 hl), if_pos hl]
      · rw [if_neg (fun e => hl (hfinal.1 e)), if_neg hl]
    rw [Host.Outcome.text_toList, hif, Text.intercalate_eq_render s.toList _ hlen]
    congr 1
    refine List.ext_getElem (by simp [hlen]) fun i h₁ h₂ => ?_
    simp only [List.getElem_zipWith, List.getElem_mapIdx, hlines]
  refine ⟨Text.render_layout s.toList, htext, fun hnoop => ?_⟩
  have hnil : o.changed = [] := by simpa [Host.Outcome.isNoop] using hnoop
  rw [htext, hnil]
  congr 1
  exact List.ext_getElem (by simp) fun i _ _ => by simp

/-- `func f()` with a carriage return and a line feed after it, made public: the line gets its
new text, and its break comes back as a line feed. -/
theorem public_func_crlf_relaid :
    let s := "func f()\r\n"
    let o : Host.Outcome :=
      ⟨some (.setLevel .«public»), [(0, "public func f()")], [0], ["public func f()"]⟩
    Host.perform Host.HostConfig.default
        (Host.Invocation.ofSource "MakePublic" Host.swiftSource s [⟨⟨0, 0⟩, ⟨1, 0⟩⟩]) = .ok o ∧
      Text.render (Text.layout s.toList) = s.toList ∧
      (o.text (s.endsWith "\n")).toList =
        Text.render ((Text.layout s.toList).mapIdx fun i l => Text.LineSpan.withLf
          { l with text := if i ∈ o.changed then ((o.newLines.lookup i).getD "").toList else l.text }) ∧
      (o.isNoop = true →
        (o.text (s.endsWith "\n")).toList = Text.render ((Text.layout s.toList).map Text.LineSpan.withLf)) := by
  have hlines : Text.lines "func f()\r\n" = ["func f()"] := by cbv
  have hcmd : Host.Command.change? "MakePublic" Host.HostConfig.default.bundleId =
      some (.setLevel .«public») := by decide
  have hsel : Host.selectedLines [⟨⟨0, 0⟩, ⟨1, 0⟩⟩] = [0] := by cbv
  have hnew : (Buffer.ofLines ["func f()"]).newLines [0] (.setLevel .«public») =
      [(0, "public func f()")] := by cbv
  have hchanged : (Buffer.ofLines ["func f()"]).changedLines [(0, "public func f()")] = [0] := by cbv
  have h : Host.perform Host.HostConfig.default
      (Host.Invocation.ofSource "MakePublic" Host.swiftSource "func f()\r\n" [⟨⟨0, 0⟩, ⟨1, 0⟩⟩]) =
        .ok ⟨some (.setLevel .«public»), [(0, "public func f()")], [0], ["public func f()"]⟩ := by
    simp only [Host.perform, Host.Invocation.ofSource, hlines, hcmd, hsel, hnew, hchanged]
    rfl
  exact ⟨h, performed_text_relaid h⟩

/-- A carriage return and a line feed after the only line of a source come back as a line feed,
also from a command that changes nothing: the text is `a` and a line feed. -/
theorem crlf_break_written_lf :
    let o : Host.Outcome := ⟨none, [], [], ["a"]⟩
    Host.perform Host.HostConfig.default
        (Host.Invocation.ofSource "Refresh" Host.swiftSource "a\r\n" [⟨⟨0, 0⟩, ⟨1, 0⟩⟩]) = .ok o ∧
      o.isNoop = true ∧ o.text ("a\r\n".endsWith "\n") ≠ "a\r\n" := by
  have hlines : Text.lines "a\r\n" = ["a"] := by cbv
  have hcmd : Host.Command.change? "Refresh" Host.HostConfig.default.bundleId = none := by decide
  have hsel : Host.selectedLines [⟨⟨0, 0⟩, ⟨1, 0⟩⟩] = [0] := by cbv
  refine ⟨?_, rfl, by cbv⟩
  simp only [Host.perform, Host.Invocation.ofSource, hlines, hcmd, hsel]
  rfl

end SwiftAccess
