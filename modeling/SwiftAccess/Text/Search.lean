/-!
# Finding a marker in text

Comment and string delimiters are found by their first occurrence. `Text.breakOn? pat s` cuts `s`
around the first occurrence of `pat` and gives the text before and after it;
`breakOn?_eq_some` says the three parts make up `s` again, and `breakOn?_length` that the part
after is shorter than `s` when `pat` is not empty, which is what lets a scan continue there.
-/

namespace SwiftAccess.Text

/-- The text before and after the first occurrence of `pat` in `s`. -/
def breakOn? (pat : List Char) : List Char → Option (List Char × List Char)
  | [] => if pat.isPrefixOf [] then some ([], []) else none
  | c :: cs =>
    if pat.isPrefixOf (c :: cs) then some ([], (c :: cs).drop pat.length)
    else (breakOn? pat cs).map fun r => (c :: r.1, r.2)

/-- Whether `pat` occurs in `s`. -/
def occursIn (pat s : List Char) : Bool := (breakOn? pat s).isSome

theorem breakOn?_eq_some {pat : List Char} :
    ∀ {s b a : List Char}, breakOn? pat s = some (b, a) → s = b ++ pat ++ a
  | [], b, a, h => by
    simp only [breakOn?] at h
    split at h
    · next hp =>
      simp only [Option.some.injEq, Prod.mk.injEq] at h
      obtain ⟨rfl, rfl⟩ := h
      have := List.isPrefixOf_iff_prefix.mp hp
      simp_all
    · simp at h
  | c :: cs, b, a, h => by
    simp only [breakOn?] at h
    split at h
    · next hp =>
      simp only [Option.some.injEq, Prod.mk.injEq] at h
      obtain ⟨rfl, rfl⟩ := h
      obtain ⟨t, ht⟩ := List.isPrefixOf_iff_prefix.mp hp
      rw [← ht]
      simp
    · cases hs : breakOn? pat cs with
      | none => simp [hs] at h
      | some r =>
        obtain ⟨b', a'⟩ := r
        simp only [hs, Option.map_some, Option.some.injEq, Prod.mk.injEq] at h
        obtain ⟨rfl, rfl⟩ := h
        simp [breakOn?_eq_some hs]

theorem breakOn?_length {pat s b a : List Char} (hp : pat ≠ []) (h : breakOn? pat s = some (b, a)) :
    a.length < s.length := by
  have e := congrArg List.length (breakOn?_eq_some h)
  have : 0 < pat.length := List.length_pos_iff.mpr hp
  simp only [List.length_append] at e
  omega

end SwiftAccess.Text
