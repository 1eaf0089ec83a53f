import Mathlib.Data.List.Basic

/-!
Models of `sparsed_string` and `trim` from `str/transform.hpp`. A string is a list of
characters of any type, and the locale's `isspace` is a predicate on them. The functions
follow the iterator loops of the source, and each is characterised by a closed form.
-/

namespace Pgfe.Str

variable {α : Type}

/-! `sparsed_string` -/

/-- The loop of `sparsed_string`: `current` is `*i` and the list holds the characters after
it. The loop stops when `i` reaches `cend(input) - 1`, and `*i` is appended once more. -/
def sparsedLoop (delimiter result : List α) (current : α) : List α → List α
  | [] => result ++ [current]
  | next :: rest => sparsedLoop delimiter (result ++ current :: delimiter) next rest

def sparsedString (input delimiter : List α) : List α :=
  match input with
  | [] => []
  | first :: rest => sparsedLoop delimiter [] first rest

theorem intercalate_cons_cons (delimiter first second : List α) (rest : List (List α)) :
    List.intercalate delimiter (first :: second :: rest) =
      first ++ delimiter ++ List.intercalate delimiter (second :: rest) := by
  simp [List.intercalate, List.intersperse_cons_cons]

theorem sparsedLoop_eq (delimiter : List α) (result : List α) (current : α) (rest : List α) :
    sparsedLoop delimiter result current rest =
      result ++ List.intercalate delimiter ((current :: rest).map fun c => [c]) := by
  induction rest generalizing result current with
  | nil => simp [sparsedLoop, List.intercalate]
  | cons next rest ih =>
      rw [sparsedLoop, ih]
      simp [intercalate_cons_cons]

theorem length_intercalate_singletons (delimiter : List α) : ∀ input : List α,
    (List.intercalate delimiter (input.map fun c => [c])).length =
      input.length + (input.length - 1) * delimiter.length
  | [] => by simp [List.intercalate]
  | [c] => by simp [List.intercalate]
  | first :: second :: rest => by
      have tail := length_intercalate_singletons delimiter (second :: rest)
      simp only [List.map_cons, List.length_cons] at tail ⊢
      rw [intercalate_cons_cons, List.length_append, List.length_append, tail]
      simp only [List.length_singleton, Nat.add_sub_cancel, Nat.succ_mul]
      omega

/-- The result of `sparsed_string` has the delimiter between every two characters and
nowhere else, so it has exactly the length the function reserves. -/
theorem sparsedString_eq (input delimiter : List α) :
    sparsedString input delimiter = List.intercalate delimiter (input.map fun c => [c]) ∧
      (sparsedString input delimiter).length =
        input.length + (input.length - 1) * delimiter.length := by
  have closed : sparsedString input delimiter =
      List.intercalate delimiter (input.map fun c => [c]) := by
    cases input with
    | nil => rfl
    | cons first rest => simp [sparsedString, sparsedLoop_eq]
  exact ⟨closed, closed ▸ length_intercalate_singletons delimiter input⟩

example : sparsedString [1, 2, 3] [0, 0] = [1, 0, 0, 2, 0, 0, 3] := by decide

/-! `trim` -/

/-- Models `std::move(first, first + count, dest)` inside one string, one character at a
time from the front. The standard requires `dest` outside `[first, first + count)`; the model
also defines the call with `dest = first`, where each character is moved onto itself and the
string is unchanged. -/
def moveForward : Nat → List α → Nat → Nat → List α
  | 0, str, _, _ => str
  | count + 1, str, first, dest =>
      moveForward count (match str[first]? with
        | some c => str.set dest c
        | none => str) (first + 1) (dest + 1)

/-- Models `trim(str, loc)`: `tb` from `find_if`, `te` from a reverse `find_if` and
`.base()`, then the kept range is moved to the front and the string resized. A string with no
leading space has `tb == b`, so the source calls `std::move(tb, te, b)` with its destination at
the start of its own range, outside the standard's precondition; the model takes that call to
leave the range as it is, which is what a forward copy of `char`s does. -/
def trim (isSpace : α → Bool) (str : List α) : List α :=
  if str.isEmpty then str
  else
    let tb := str.findIdx fun c => !isSpace c
    if tb = str.length then []
    else
      let te := str.length - str.reverse.findIdx fun c => !isSpace c
      (moveForward (te - tb) str tb 0).take (te - tb)

theorem getElem?_moveForward : ∀ (count : Nat) (str : List α) (first dest i : Nat),
    dest ≤ first → first + count ≤ str.length →
      (moveForward count str first dest)[i]? =
        if dest ≤ i ∧ i < dest + count then str[i - dest + first]? else str[i]?
  | 0, str, first, dest, i, _, _ => by rw [moveForward, if_neg (by omega)]
  | count + 1, str, first, dest, i, below, bound => by
      have present : first < str.length := by omega
      rw [moveForward, List.getElem?_eq_getElem present,
        getElem?_moveForward count _ (first + 1) (dest + 1) i (by omega) (by simp; omega)]
      simp only [List.getElem?_set, List.length_set]
      by_cases inside : dest + 1 ≤ i ∧ i < dest + 1 + count
      · have shifted : i - (dest + 1) + (first + 1) = i - dest + first := by omega
        rw [if_pos inside, if_neg (by omega), if_pos (by omega), shifted]
      · by_cases here : dest = i
        · subst here
          rw [if_neg inside, if_pos rfl, if_pos (by omega), if_pos (by omega), Nat.sub_self,
            Nat.zero_add, List.getElem?_eq_getElem present]
        · rw [if_neg inside, if_neg here, if_neg (by omega)]

theorem take_moveForward (count : Nat) (str : List α) (first : Nat)
    (bound : first + count ≤ str.length) :
    (moveForward count str first 0).take count = (str.drop first).take count := by
  apply List.ext_getElem?
  intro i
  rw [List.getElem?_take, List.getElem?_take, List.getElem?_drop,
    getElem?_moveForward count str first 0 i (Nat.zero_le _) bound]
  by_cases inside : i < count
  · rw [if_pos inside, if_pos inside, if_pos ⟨Nat.zero_le _, by omega⟩, Nat.sub_zero,
      Nat.add_comm]
  · rw [if_neg inside, if_neg inside]

theorem findIdx_not_eq_length_takeWhile (isSpace : α → Bool) : ∀ str : List α,
    str.findIdx (fun c => !isSpace c) = (str.takeWhile isSpace).length
  | [] => rfl
  | c :: rest => by
      rw [List.findIdx_cons, List.takeWhile_cons, findIdx_not_eq_length_takeWhile isSpace rest]
      cases isSpace c <;> rfl

theorem dropWhile_of_head {isSpace : α → Bool} {str : List α}
    (head : ∀ c ∈ str.head?, isSpace c = false) : str.dropWhile isSpace = str := by
  cases str with
  | nil => rfl
  | cons c rest => simp [List.dropWhile_cons, head c rfl]

/-- The string `str` with its maximal leading and trailing runs of spaces removed. -/
def trimmed (isSpace : α → Bool) (str : List α) : List α :=
  ((str.dropWhile isSpace).reverse.dropWhile isSpace).reverse

theorem dropWhile_eq_trimmed_append (isSpace : α → Bool) (str : List α) :
    str.dropWhile isSpace =
      trimmed isSpace str ++ ((str.dropWhile isSpace).reverse.takeWhile isSpace).reverse := by
  rw [trimmed, ← List.reverse_append, List.takeWhile_append_dropWhile, List.reverse_reverse]

theorem all_space_of_trimmed_eq_nil {isSpace : α → Bool} {str : List α}
    (empty : trimmed isSpace str = []) : ∀ c ∈ str, isSpace c = true := by
  rw [trimmed, List.reverse_eq_nil_iff, List.dropWhile_eq_nil_iff] at empty
  intro c member
  rw [← List.takeWhile_append_dropWhile isSpace str, List.mem_append] at member
  rcases member with leading | rest
  · exact List.mem_takeWhile_imp leading
  · exact empty c (List.mem_reverse.mpr rest)

theorem trimmed_head (isSpace : α → Bool) (str : List α) :
    ∀ c ∈ (trimmed isSpace str).head?, isSpace c = false := by
  intro c first
  have rest := List.head?_dropWhile_not isSpace str
  rw [dropWhile_eq_trimmed_append, List.head?_append, Option.mem_def.mp first] at rest
  exact rest

theorem trimmed_getLast (isSpace : α → Bool) (str : List α) :
    ∀ c ∈ (trimmed isSpace str).getLast?, isSpace c = false := by
  intro c last
  have rest := List.head?_dropWhile_not isSpace (str.dropWhile isSpace).reverse
  rw [trimmed, List.getLast?_reverse, Option.mem_def] at last
  rw [last] at rest
  exact rest

theorem takeWhile_reverse_eq {isSpace : α → Bool} {str : List α}
    (present : trimmed isSpace str ≠ []) :
    str.reverse.takeWhile isSpace = (str.dropWhile isSpace).reverse.takeWhile isSpace := by
  conv_lhs => rw [← List.takeWhile_append_dropWhile isSpace str]
  rw [List.reverse_append, List.takeWhile_append, if_neg]
  intro whole
  have lengths := congrArg List.length
    (List.takeWhile_append_dropWhile isSpace (str.dropWhile isSpace).reverse)
  rw [List.length_append, whole] at lengths
  exact present (by simpa [trimmed] using lengths)

theorem trim_eq_trimmed (isSpace : α → Bool) (str : List α) :
    trim isSpace str = trimmed isSpace str := by
  cases str with
  | nil => rfl
  | cons first others =>
    unfold trim
    simp only [List.isEmpty_cons, Bool.false_eq_true, if_false, findIdx_not_eq_length_takeWhile]
    generalize first :: others = str
    by_cases empty : trimmed isSpace str = []
    · rw [List.takeWhile_eq_self_iff.mpr (all_space_of_trimmed_eq_nil empty), if_pos rfl, empty]
    · have whole := List.takeWhile_append_dropWhile isSpace str
      rw [dropWhile_eq_trimmed_append] at whole
      have lengths := congrArg List.length whole
      have nonempty := List.length_pos.mpr empty
      simp only [List.length_append, List.length_reverse] at lengths
      rw [if_neg (by omega), takeWhile_reverse_eq empty]
      have size : str.length - ((str.dropWhile isSpace).reverse.takeWhile isSpace).length -
          (str.takeWhile isSpace).length = (trimmed isSpace str).length := by omega
      rw [size, take_moveForward _ _ _ (by omega)]
      set lead := str.takeWhile isSpace
      set mid := trimmed isSpace str
      rw [← whole, List.drop_left' rfl, List.take_left' rfl]

/-- The string `result` is `str` without a maximal leading and a maximal trailing run of
spaces. -/
structure Trimmed (isSpace : α → Bool) (str result : List α) : Prop where
  parts : ∃ lead trail, str = lead ++ result ++ trail ∧
    (∀ c ∈ lead, isSpace c = true) ∧ ∀ c ∈ trail, isSpace c = true
  head : ∀ c ∈ result.head?, isSpace c = false
  last : ∀ c ∈ result.getLast?, isSpace c = false

theorem trimmed_trimmed (isSpace : α → Bool) (str : List α) :
    Trimmed isSpace str (trimmed isSpace str) where
  parts := by
    refine ⟨str.takeWhile isSpace, ((str.dropWhile isSpace).reverse.takeWhile isSpace).reverse,
      ?_, fun c => List.mem_takeWhile_imp, fun c member => ?_⟩
    · rw [List.append_assoc, ← dropWhile_eq_trimmed_append, List.takeWhile_append_dropWhile]
    · exact List.mem_takeWhile_imp (List.mem_reverse.mp member)
  head := trimmed_head isSpace str
  last := trimmed_getLast isSpace str

theorem trimmed_eq_self {isSpace : α → Bool} {str result : List α}
    (trimmedFrom : Trimmed isSpace str result) : trimmed isSpace result = result := by
  have last : ∀ c ∈ result.reverse.head?, isSpace c = false := by
    rw [List.head?_reverse]
    exact trimmedFrom.last
  rw [trimmed, dropWhile_of_head trimmedFrom.head, dropWhile_of_head last, List.reverse_reverse]

/-- Trimming removes exactly the maximal leading and trailing runs of spaces, and is
idempotent. -/
theorem trim_spec (isSpace : α → Bool) (str : List α) :
    trim isSpace str = ((str.dropWhile isSpace).reverse.dropWhile isSpace).reverse ∧
      Trimmed isSpace str (trim isSpace str) ∧
      trim isSpace (trim isSpace str) = trim isSpace str := by
  rw [trim_eq_trimmed, trim_eq_trimmed]
  exact ⟨rfl, trimmed_trimmed isSpace str, trimmed_eq_self (trimmed_trimmed isSpace str)⟩

example : trim (· == 0) [0, 0, 1, 0, 2, 0] = [1, 0, 2] := by decide

end Pgfe.Str
