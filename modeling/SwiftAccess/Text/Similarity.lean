/-!
# Jaro similarity

When a long option is misspelt, the command line suggests the known option that is most similar to
it. Similarity is the Jaro measure, computed in double precision so that the threshold and the ranking
decide exactly as they do for any other program that computes the measure this way.

Two characters match when they are equal and no further apart than half the longer length, less
one; each character of the second text matches at most one of the first, scanning the first text
from the left and taking the leftmost free partner. With `m` matches and `t` half the number of
matched pairs that appear in a different order, the measure is
`((m / |a| + m / |b|) + (m - t) / m) / 3`; two empty texts score 1 and an empty text against a
non-empty one scores 0.
-/

namespace SwiftAccess.Text

/-- The first free position `j` in `[lo, hi)` where `b` holds `c`. -/
def freePartner? (b : List Char) (taken : List Bool) (c : Char) (lo hi : Nat) : Option Nat :=
  (List.range' lo (hi - lo)).find? fun j => b[j]? == some c && taken[j]? == some false

/-- Which characters of `a` and of `b` are matched, scanning `a` from the left. -/
def matchFlags (a b : List Char) : List Bool × List Bool :=
  let window := max a.length b.length / 2 - 1
  let step := fun (acc : List Bool × List Bool) (ci : Char × Nat) =>
    let (c, i) := ci
    match freePartner? b acc.2 c (i - window) (min b.length (i + window + 1)) with
    | some j => (acc.1 ++ [true], acc.2.set j true)
    | none => (acc.1 ++ [false], acc.2)
  a.zipIdx.foldl step ([], List.replicate b.length false)

/-- The characters whose flag is set. -/
def flagged (cs : List Char) (flags : List Bool) : List Char :=
  ((cs.zip flags).filter (·.2)).map (·.1)

/-- The Jaro similarity of two texts, between 0 and 1. -/
def jaro (a b : List Char) : Float :=
  if a.isEmpty && b.isEmpty then 1.0
  else if a.isEmpty || b.isEmpty then 0.0
  else
    let (fa, fb) := matchFlags a b
    let ma := flagged a fa
    let m := ma.length
    let t := ((ma.zip (flagged b fb)).countP fun p => p.1 != p.2) / 2
    if m = 0 then 0.0
    else
      ((m.toFloat / a.length.toFloat + m.toFloat / b.length.toFloat) +
        (m - t).toFloat / m.toFloat) / 3.0

/-- The candidate most similar to `word`, if any scores above 0.7; among equally similar
candidates the last one wins. -/
def closest? (word : String) (candidates : List String) : Option String :=
  let scored := candidates.filterMap fun c =>
    let score := jaro word.toList c.toList
    if score > 0.7 then some (score, c) else none
  (scored.foldl (fun best sc =>
    match best with
    | some b => if sc.1 ≥ b.1 then some sc else some b
    | none => some sc) none).map (·.2)

end SwiftAccess.Text
