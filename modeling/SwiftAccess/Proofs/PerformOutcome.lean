import SwiftAccess.Proofs.SelectionText

/-!
# What performing a command gives

`Host.perform` makes three checks, in order: the host rewrites the buffer's content type, the
program can list the lines of every selection (`Host.TextRange.listable`: a range of more lines
than a list holds stops the program), and some line is selected. `perform_eq_error_iff` gives each
error with its cause, and `perform_eq_ok` what a command that runs gives: an unknown command
leaves the buffer alone, and a known one rewrites the selected lines.

The buffer a command returns is built by copying the new text of each changed line into the
buffer, while `Buffer.rewritten` puts every new text in place; the two agree because a new text
that is no change is the line itself (`Host.copyChanged_eq_rewritten`). So the returned buffer
keeps the number of lines, and it is the buffer itself exactly when no line changed
(`Buffer.changedLines_eq_nil_iff`). `perform_refuses_or_rewrites` gathers these facts;
`huge_selection_overflows` is a selection that names lines but stops the program.
-/

namespace SwiftAccess

namespace Buffer

/-- The changed lines come by increasing number, as the new texts do. -/
theorem pairwise_changedLines (b : Buffer) (sel : List Nat) (change : AccessChange) :
    (b.changedLines (b.newLines sel change)).Pairwise (· < ·) := by
  unfold changedLines
  rw [List.pairwise_map]
  exact (pairwise_newLines b sel change).filter _

/-- No line changes exactly when the rewritten buffer is the buffer. -/
theorem changedLines_eq_nil_iff (b : Buffer) (sel : List Nat) (change : AccessChange) :
    b.changedLines (b.newLines sel change) = [] ↔ b.rewritten sel change = b.lines := by
  constructor
  · intro h
    refine List.ext_getElem? fun n => ?_
    rw [rewritten_getElem?_changed, h, if_neg List.not_mem_nil]
  · intro h
    refine List.eq_nil_iff_forall_not_mem.2 fun n hn => ?_
    -- a changed line reads as its new text, which differs from the line
    obtain ⟨t, hu, line, hl, hne⟩ := mem_changedLines.1 hn
    have ht := rewritten_getElem?_of_mem hu
    rw [h, hl, Option.some.injEq] at ht
    exact hne ht

end Buffer

namespace Host

variable {config : HostConfig} {inv : Invocation}

theorem HostConfig.supports_iff {c : HostConfig} {t : String} :
    c.supports t = true ↔ t ∈ c.contentTypes := by
  simp [HostConfig.supports]

theorem not_exists_unlistable {ranges : List TextRange} (hl : ∀ r ∈ ranges, r.listable = true) :
    ¬∃ r ∈ ranges, r.listable = false := fun ⟨r, hr, hf⟩ => by
  rw [hl r hr] at hf
  cases hf

/-- The errors of `perform`, each with its cause: an unsupported content type; then a selection
too large to list, which stops the program; then a selection of no line. -/
theorem perform_eq_error_iff {e : PerformError} :
    perform config inv = .error e ↔
      (inv.contentType ∉ config.contentTypes ∧ e = .refused (.unsupportedContentType inv.contentType)) ∨
      (inv.contentType ∈ config.contentTypes ∧ (∃ r ∈ inv.selections, r.listable = false) ∧
        e = .capacityOverflow) ∨
      (inv.contentType ∈ config.contentTypes ∧ (∀ r ∈ inv.selections, r.listable = true) ∧
        selectedLines inv.selections = [] ∧ e = .refused .noSelection) := by
  by_cases hs : inv.contentType ∈ config.contentTypes
  · have hsup := HostConfig.supports_iff.2 hs
    by_cases hl : ∀ r ∈ inv.selections, r.listable = true
    · have hall : inv.selections.all TextRange.listable = true := List.all_eq_true.2 hl
      have hnl := not_exists_unlistable hl
      by_cases he : selectedLines inv.selections = []
      · have hp : perform config inv = .error (.refused .noSelection) := by
          simp only [perform, hsup, hall, Bool.not_true, Bool.false_eq_true, if_false,
            List.isEmpty_iff, he, if_true]
        rw [hp, Except.error.injEq, eq_comm]
        refine ⟨fun h => .inr (.inr ⟨hs, hl, he, h⟩), ?_⟩
        rintro (⟨hn, -⟩ | ⟨-, hn, -⟩ | ⟨-, -, -, h⟩)
        · exact absurd hs hn
        · exact absurd hn hnl
        · exact h
      · -- the command runs, and gives an outcome
        have hp : ∃ o, perform config inv = .ok o := by
          simp only [perform, hsup, hall, Bool.not_true, Bool.false_eq_true, if_false,
            List.isEmpty_iff, he]
          split <;> exact ⟨_, rfl⟩
        obtain ⟨o, hp⟩ := hp
        rw [hp]
        simp only [reduceCtorEq, false_iff, not_or, not_and]
        exact ⟨fun h => absurd hs h, fun _ h => absurd h hnl, fun _ _ h => absurd h he⟩
    · have hl' : ∃ r ∈ inv.selections, r.listable = false := by simpa using hl
      have hall : inv.selections.all TextRange.listable = false := by simpa using hl'
      have hp : perform config inv = .error .capacityOverflow := by
        simp only [perform, hsup, hall, Bool.not_true, Bool.not_false, Bool.false_eq_true, if_false,
          if_true]
      rw [hp, Except.error.injEq, eq_comm]
      simp [hs, hl']
  · have hn : config.supports inv.contentType = false := Bool.eq_false_iff.2 (mt HostConfig.supports_iff.1 hs)
    have hp : perform config inv = .error (.refused (.unsupportedContentType inv.contentType)) := by
      simp only [perform, hn, Bool.not_false, if_true]
    rw [hp, Except.error.injEq, eq_comm]
    simp [hs]

/-- A command that `perform` runs: an unknown one leaves the buffer alone; a known one lists the
new text of each selected eligible line and the lines whose text changed, and gives the
rewritten buffer. -/
theorem perform_eq_ok {o : Outcome} (h : perform config inv = .ok o) :
    (Command.change? inv.command config.bundleId = none ∧
      o = { change := none, newLines := [], changed := [], lines := inv.lines }) ∨
    ∃ c, Command.change? inv.command config.bundleId = some c ∧ o.change = some c ∧
      o.newLines = (Buffer.ofLines inv.lines).newLines (selectedLines inv.selections) c ∧
      o.changed = (Buffer.ofLines inv.lines).changedLines o.newLines ∧
      o.lines = (Buffer.ofLines inv.lines).rewritten (selectedLines inv.selections) c := by
  unfold perform at h
  split at h
  · cases h
  split at h
  · cases h
  dsimp only at h
  split at h
  · cases h
  split at h
  · next hc =>
    cases h
    exact .inl ⟨hc, rfl⟩
  · next c hc =>
    cases h
    exact .inr ⟨c, hc, rfl, rfl, rfl,
      copyChanged_eq_rewritten (Buffer.ofLines inv.lines) (selectedLines inv.selections) c⟩

/-- **Performing a command.** It refuses exactly the content types the host does not rewrite.
Otherwise it stops exactly when a selection holds more lines than the program can list, and
otherwise refuses exactly a selection of no line, and runs the command on any other. An unknown
command changes nothing. A known command `c` lists the new text of every selected eligible line,
as the buffer's rewriter gives it, and the lines whose new text differs from the line, by
increasing number; the buffer it returns is the rewritten buffer. Either way the buffer keeps its
number of lines, and the command changed nothing exactly when the buffer is unchanged. -/
theorem perform_refuses_or_rewrites (config : HostConfig) (inv : Invocation) :
    (perform config inv = .error (.refused (.unsupportedContentType inv.contentType)) ↔
        inv.contentType ∉ config.contentTypes) ∧
    (inv.contentType ∈ config.contentTypes →
      (perform config inv = .error .capacityOverflow ↔
          ∃ r ∈ inv.selections, r.listable = false) ∧
      ((∀ r ∈ inv.selections, r.listable = true) →
        (perform config inv = .error (.refused .noSelection) ↔
            selectedLines inv.selections = []) ∧
        (selectedLines inv.selections ≠ [] → ∃ o, perform config inv = .ok o))) ∧
    ∀ o, perform config inv = .ok o →
      (Command.change? inv.command config.bundleId = none →
        o.change = none ∧ o.newLines = [] ∧ o.changed = [] ∧ o.lines = inv.lines) ∧
      (∀ c, Command.change? inv.command config.bundleId = some c →
        o.change = some c ∧
        o.newLines = (Buffer.ofLines inv.lines).newLines (selectedLines inv.selections) c ∧
        o.changed.Pairwise (· < ·) ∧
        (∀ n, n ∈ o.changed ↔
          ∃ t, (n, t) ∈ o.newLines ∧ ∃ line, inv.lines[n]? = some line ∧ line ≠ t) ∧
        o.lines = (Buffer.ofLines inv.lines).rewritten (selectedLines inv.selections) c) ∧
      o.lines.length = inv.lines.length ∧
      (o.isNoop = true ↔ o.lines = inv.lines) := by
  refine ⟨?_, fun hs => ⟨?_, fun hl => ⟨?_, fun he => ?_⟩⟩, fun o h => ?_⟩
  · rw [perform_eq_error_iff]
    constructor
    · rintro (⟨hn, -⟩ | ⟨-, -, h⟩ | ⟨-, -, -, h⟩)
      · exact hn
      · cases h
      · cases h
    · exact fun hn => .inl ⟨hn, rfl⟩
  · rw [perform_eq_error_iff]
    constructor
    · rintro (⟨hn, -⟩ | ⟨-, hl, -⟩ | ⟨-, -, -, h⟩)
      · exact absurd hs hn
      · exact hl
      · cases h
    · exact fun hl => .inr (.inl ⟨hs, hl, rfl⟩)
  · rw [perform_eq_error_iff]
    constructor
    · rintro (⟨hn, -⟩ | ⟨-, hu, -⟩ | ⟨-, -, he, -⟩)
      · exact absurd hs hn
      · exact absurd hu (not_exists_unlistable hl)
      · exact he
    · exact fun he => .inr (.inr ⟨hs, hl, he, rfl⟩)
  · -- no error applies, so the command runs
    cases hp : perform config inv with
    | ok o => exact ⟨o, rfl⟩
    | error e =>
      rcases perform_eq_error_iff.1 hp with ⟨hn, -⟩ | ⟨-, hu, -⟩ | ⟨-, -, he', -⟩
      · exact absurd hs hn
      · exact absurd hu (not_exists_unlistable hl)
      · exact absurd he' he
  · rcases perform_eq_ok h with ⟨hc, rfl⟩ | ⟨c, hc, hch, hnew, hchanged, hlines⟩
    · refine ⟨fun _ => ⟨rfl, rfl, rfl, rfl⟩, fun c hc' => ?_, rfl, by simp [Outcome.isNoop]⟩
      rw [hc] at hc'
      cases hc'
    · have hlen : o.lines.length = inv.lines.length := by
        rw [hlines, Buffer.rewritten_length]
        rfl
      refine ⟨fun hc' => ?_, fun c' hc' => ?_, hlen, ?_⟩
      · rw [hc] at hc'
        cases hc'
      · rw [hc] at hc'
        cases hc'
        refine ⟨hch, hnew, ?_, fun n => ?_, hlines⟩
        · rw [hchanged, hnew]
          exact Buffer.pairwise_changedLines _ _ _
        · rw [hchanged, Buffer.mem_changedLines]
          rfl
      · rw [Outcome.isNoop, List.isEmpty_iff, hchanged, hnew, Buffer.changedLines_eq_nil_iff,
          hlines]
        rfl

/-- `MakePublic` with the first line of a Swift buffer selected: the command runs, and its outcome
is the buffer with that line made `public`. -/
theorem make_public_performed :
    ∃ o, perform HostConfig.default ⟨"com.accesskitty.Extension.MakePublic", swiftSource,
        ["func f()", "let x = 1"], [⟨⟨0, 0⟩, ⟨0, 8⟩⟩]⟩ = .ok o ∧
      o.lines = ["public func f()", "let x = 1"] := by
  have h := perform_refuses_or_rewrites HostConfig.default ⟨"com.accesskitty.Extension.MakePublic",
    swiftSource, ["func f()", "let x = 1"], [⟨⟨0, 0⟩, ⟨0, 8⟩⟩]⟩
  have hsel : selectedLines [⟨⟨0, 0⟩, ⟨0, 8⟩⟩] = [0] := by cbv
  obtain ⟨o, ho⟩ := ((h.2.1 (by decide)).2 (by decide)).2 (by rw [hsel]; simp)
  have hlines := ((h.2.2 o ho).2.1 (.setLevel .public) (by cbv)).2.2.2.2
  rw [hsel] at hlines
  exact ⟨o, ho, hlines.trans (by cbv)⟩

/-- A selection of `2 ^ 60` lines names lines, in a content type the host rewrites, and still
stops the program: it holds more lines than a list can. -/
theorem huge_selection_overflows :
    let inv : Invocation := ⟨"Nope", swiftSource, ["let a = 1"],
      [⟨⟨0, 0⟩, ⟨1152921504606846976, 0⟩⟩]⟩
    inv.contentType ∈ HostConfig.default.contentTypes ∧ selectedLines inv.selections ≠ [] ∧
      perform HostConfig.default inv = .error .capacityOverflow := by
  intro inv
  have hs : inv.contentType ∈ HostConfig.default.contentTypes := List.mem_cons_self ..
  have hr : (⟨⟨0, 0⟩, ⟨1152921504606846976, 0⟩⟩ : TextRange) ∈ inv.selections := List.mem_cons_self ..
  -- the range selects line 0 among its `2 ^ 60` lines, which are never listed here
  have h0 : 0 ∈ selectedLines inv.selections := by
    refine mem_selectedLines.2 ⟨_, hr, List.mem_range'.2 ⟨0, ?_, rfl⟩⟩
    decide
  exact ⟨hs, List.ne_nil_of_mem h0, perform_eq_error_iff.2 (.inr (.inl ⟨hs, ⟨_, hr, by decide⟩, rfl⟩))⟩

end Host

end SwiftAccess
