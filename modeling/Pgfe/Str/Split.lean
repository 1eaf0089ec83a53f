import Mathlib.Data.List.Basic

/-!
Model of `split` from `str/transform.hpp`. The `while` loop runs on explicit fuel, `npos` is
`none`, and the loop's `DMITIGR_ASSERT` and the `std::out_of_range` of `substr` end the run
with `none`. The main result: with the fuel `split` gives it, the loop always finishes, and
its parts are the ones `List.splitOnP` cuts at the separators.
-/

namespace Pgfe.Str

variable {α : Type}

theorem decompose_of_findIdx_eq_some (p : α → Bool) : ∀ (xs : List α) (i : Nat),
    xs.findIdx? p = some i →
      ∃ x, xs = xs.take i ++ x :: xs.drop (i + 1) ∧ p x = true ∧ ∀ y ∈ xs.take i, p y = false
  | [], _, found => by simp at found
  | y :: ys, i, found => by
      rw [List.findIdx?_cons] at found
      cases matched : p y
      · rw [matched, if_neg (by simp), List.findIdx?_start_succ] at found
        obtain ⟨i, tail, rfl⟩ := Option.map_eq_some'.mp found
        obtain ⟨x, cut, px, before⟩ := decompose_of_findIdx_eq_some p ys i tail
        refine ⟨x, ?_, px, ?_⟩
        · rw [List.take_succ_cons, List.drop_succ_cons, List.cons_append, ← cut]
        · rw [List.take_succ_cons]
          rintro z (_ | ⟨_, member⟩)
          · exact matched
          · exact before z member
      · rw [matched, if_pos rfl] at found
        cases found
        exact ⟨y, rfl, matched, by simp⟩

theorem length_splitOnP (p : α → Bool) : ∀ xs : List α,
    (xs.splitOnP p).length = (xs.filter p).length + 1
  | [] => rfl
  | x :: xs => by
      rw [List.splitOnP_cons, List.filter_cons]
      cases p x <;> simp [length_splitOnP p xs]

theorem splitOnP_parts (p : α → Bool) : ∀ xs : List α,
    ∀ part ∈ xs.splitOnP p, ∀ c ∈ part, p c = false
  | [] => by simp
  | x :: xs => by
      rw [List.splitOnP_cons]
      obtain ⟨first, rest, parts⟩ := List.exists_cons_of_ne_nil (List.splitOnP_ne_nil p xs)
      have tail := splitOnP_parts p xs
      rw [parts] at tail ⊢
      cases separator : p x
      · rintro part (_ | ⟨_, member⟩) c inPart
        · rcases inPart with _ | ⟨_, inFirst⟩
          · exact separator
          · exact tail first (List.mem_cons_self _ _) c inFirst
        · exact tail part (List.mem_cons_of_mem _ member) c inPart
      · rintro part (_ | ⟨_, member⟩) c inPart
        · cases inPart
        · exact tail part member c inPart

theorem splitOnP_join (p : α → Bool) : ∀ (parts : List (List α)) (seps : List α),
    seps.length + 1 = parts.length → (∀ c ∈ seps, p c = true) →
      (∀ part ∈ parts, ∀ c ∈ part, p c = false) →
      ((List.zipWith (· ++ ·) parts (seps.map (fun c => [c]) ++ [[]])).flatten).splitOnP p =
        parts
  | [], _, counted, _, _ => by simp at counted
  | [part], [], _, _, clean => by
      simpa using List.splitOnP_eq_single p part fun c member => by
        simp [clean part (List.mem_singleton_self _) c member]
  | part :: next :: rest, sep :: seps, counted, separating, clean => by
      have tail := splitOnP_join p (next :: rest) seps (by simpa using counted)
        (fun c member => separating c (List.mem_cons_of_mem _ member))
        (fun other member => clean other (List.mem_cons_of_mem _ member))
      simp only [List.map_cons, List.cons_append, List.zipWith_cons_cons, List.flatten_cons,
        List.append_assoc, List.singleton_append] at tail ⊢
      rw [List.splitOnP_first p _ (fun c member => by
          simp [clean part (List.mem_cons_self _ _) c member]) sep
        (by simp [separating sep (List.mem_cons_self _ _)]), List.nil_append, tail]
  | [_], _ :: _, counted, _, _ => by simp at counted
  | _ :: _ :: _, [], counted, _, _ => by simp at counted

section

variable [DecidableEq α]

/-- Models `std::string_view::find_first_of(separators, offset)`; `none` is `npos`. -/
def findFirstOf (input separators : List α) (offset : Nat) : Option Nat :=
  ((input.drop offset).findIdx? fun c => c ∈ separators).map (offset + ·)

/-- Models `std::string_view::substr(pos, count)`, which throws `std::out_of_range` (here
`none`) when `pos` is past the end. -/
def substr (input : List α) (pos count : Nat) : Option (List α) :=
  if pos ≤ input.length then some ((input.drop pos).take count) else none

/-- Models `offset <= pos` for a `pos` that may be `npos`. -/
def atOrBefore (offset : Nat) : Option Nat → Bool
  | none => true
  | some pos => offset ≤ pos

/-- Models `std::min(pos, input.size())` for a `pos` that may be `npos`. -/
def minSize (pos : Option Nat) (size : Nat) : Nat :=
  match pos with
  | none => size
  | some pos => min pos size

/-- The `while` loop of `split` run with `fuel` iterations at most: `none` when the fuel runs
out, the assertion fails or `substr` throws; otherwise the parts and the last `pos`. -/
def splitLoop (input separators : List α) :
    Nat → List (List α) → Option Nat → Nat → Option (List (List α) × Option Nat)
  | 0, _, _, _ => none
  | fuel + 1, result, pos, offset =>
      if offset < input.length then
        let pos := findFirstOf input separators offset
        if atOrBefore offset pos then
          let partSize := minSize pos input.length - offset
          match substr input offset partSize with
          | some part => splitLoop input separators fuel (result ++ [part]) pos (offset + partSize + 1)
          | none => none
        else none
      else some (result, pos)

/-- The tail of `split`: one more, empty, part when the input ends with a separator. -/
def splitFinish : List (List α) × Option Nat → List (List α)
  | (result, pos) => if pos.isSome then result ++ [[]] else result

def split (input separators : List α) : Option (List (List α)) :=
  (splitLoop input separators (input.length + 1) [] none 0).map splitFinish

theorem findFirstOf_some {input separators : List α} {offset pos : Nat}
    (found : findFirstOf input separators offset = some pos) :
    offset ≤ pos ∧ pos < input.length ∧
      ∃ sep, input.drop offset = (input.drop offset).take (pos - offset) ++
        sep :: input.drop (pos + 1) ∧ sep ∈ separators ∧
        ∀ c ∈ (input.drop offset).take (pos - offset), c ∉ separators := by
  obtain ⟨i, index, rfl⟩ := Option.map_eq_some'.mp found
  obtain ⟨sep, cut, isSep, before⟩ := decompose_of_findIdx_eq_some _ _ i index
  rw [List.drop_drop, ← Nat.add_assoc] at cut
  rw [Nat.add_sub_cancel_left]
  have bound := (List.findIdx?_eq_some_iff_findIdx_eq.mp index).1
  rw [List.length_drop] at bound
  exact ⟨by omega, by omega, sep, cut, by simpa using isSep,
    fun c member => by simpa using before c member⟩

theorem findFirstOf_none {input separators : List α} {offset : Nat}
    (found : findFirstOf input separators offset = none) :
    ∀ c ∈ input.drop offset, c ∉ separators := by
  intro c member isSep
  rw [findFirstOf, Option.map_eq_none', List.findIdx?_eq_none_iff] at found
  simpa [isSep] using found c member

theorem splitLoop_spec (input separators : List α) (fuel : Nat) :
    ∀ (result : List (List α)) (pos : Option Nat) (offset : Nat),
      offset < input.length → input.length - offset < fuel →
        (splitLoop input separators fuel result pos offset).map splitFinish =
          some (result ++ (input.drop offset).splitOnP fun c => c ∈ separators) := by
  induction fuel with
  | zero => intro _ _ _ _ enough; omega
  | succ fuel ih =>
      intro result pos offset inside enough
      obtain ⟨fuel, rfl⟩ : ∃ rest, fuel = rest + 1 := ⟨fuel - 1, by omega⟩
      rw [splitLoop, if_pos inside]
      cases found : findFirstOf input separators offset with
      | none =>
          have whole : (input.drop offset).take (input.length - offset) = input.drop offset :=
            List.take_of_length_le (by simp)
          rw [List.splitOnP_eq_single _ _
            (fun c member => by simpa using findFirstOf_none found c member)]
          simp only [atOrBefore, minSize, if_true, substr, if_pos (Nat.le_of_lt inside), whole]
          rw [splitLoop, if_neg (by omega)]
          rfl
      | some sepPos =>
          obtain ⟨after, bound, sep, cut, isSep, before⟩ := findFirstOf_some found
          have size : min sepPos input.length - offset = sepPos - offset := by omega
          have next : offset + (sepPos - offset) + 1 = sepPos + 1 := by omega
          rw [cut, List.splitOnP_first _ _ (fun c member => by simpa using before c member) sep
            (by simpa using isSep)]
          simp only [atOrBefore, minSize, decide_eq_true after, if_true, substr,
            if_pos (Nat.le_of_lt inside), size, next]
          by_cases more : sepPos + 1 < input.length
          · rw [ih _ _ (sepPos + 1) more (by omega)]
            simp
          · have ended : input.drop (sepPos + 1) = [] := List.drop_eq_nil_of_le (by omega)
            rw [splitLoop, if_neg more, ended]
            simp [splitFinish]

theorem split_eq_splitOnP (input separators : List α) :
    split input separators =
      some (if input = [] then [] else input.splitOnP fun c => c ∈ separators) := by
  cases input with
  | nil => rfl
  | cons c rest =>
      have loop := splitLoop_spec (c :: rest) separators ((c :: rest).length + 1) [] none 0
        (by simp) (by simp)
      simpa [split] using loop

theorem split_spec (input separators : List α) :
    ∃ parts, split input separators = some parts ∧ (input = [] → parts = []) ∧
      (input ≠ [] →
        parts.length = (input.filter fun c => c ∈ separators).length + 1 ∧
        (∀ part ∈ parts, ∀ c ∈ part, c ∉ separators) ∧
        (List.zipWith (· ++ ·) parts
          ((input.filter fun c => c ∈ separators).map (fun c => [c]) ++ [[]])).flatten = input) := by
  refine ⟨_, split_eq_splitOnP input separators, fun empty => if_pos empty, fun nonempty => ?_⟩
  rw [if_neg nonempty]
  exact ⟨length_splitOnP _ input, fun part member c inPart => by
    simpa using splitOnP_parts _ input part member c inPart, List.splitOnP_spec _ input⟩

example : split [1, 0, 2, 0, 0] [0] = some [[1], [2], [], []] := by decide

/-- The converse of the decomposition: `split` recovers every decomposition it can produce.
Parts free of separators, joined by separator characters into a string that is not empty,
are split back into exactly those parts. -/
theorem split_join (separators : List α) (parts : List (List α)) (seps : List α)
    (counted : seps.length + 1 = parts.length) (separating : ∀ c ∈ seps, c ∈ separators)
    (clean : ∀ part ∈ parts, ∀ c ∈ part, c ∉ separators)
    (nonempty : (List.zipWith (· ++ ·) parts (seps.map (fun c => [c]) ++ [[]])).flatten ≠ []) :
    split (List.zipWith (· ++ ·) parts (seps.map (fun c => [c]) ++ [[]])).flatten separators =
      some parts := by
  rw [split_eq_splitOnP, if_neg nonempty, splitOnP_join _ parts seps counted
    (by simpa using separating) fun part member c inPart => by
      simpa using clean part member c inPart]

theorem split_join_trailing :
    (List.zipWith (· ++ ·) [[1], [2], []] ([0, 0].map (fun c => [c]) ++ [[]])).flatten =
        [1, 0, 2, 0] ∧
      split (List.zipWith (· ++ ·) [[1], [2], []] ([0, 0].map (fun c => [c]) ++ [[]])).flatten
        [0] = some [[1], [2], []] :=
  ⟨rfl, split_join [0] [[1], [2], []] [0, 0] rfl (by decide) (by decide) (by decide)⟩

end

end Pgfe.Str
