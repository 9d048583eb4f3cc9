import Mathlib.Data.List.SplitBy
import IntScript.Segment

/-!
# Segments

What the segments of a list are.  Each consists of a body without closing elements and one
more element, and put together they give the list back.  Main statements: a list that is put
together from bodies and closing elements has these as its segments (`segments_flatten`), a list
is cut into its segments behind each closing element (`cut_segments`), and what holds of the rest
behind the first segment can be carried over to the whole list (`segments_induction`).
-/

namespace IntScript

variable {α β : Type} {ends : α → Bool}

@[simp]
theorem flatten_segments (l : List α) :
  (segments ends l).flatten = l
  := List.flatten_splitBy _ l

theorem isChain_segment_iff (body : List α) (last : α) :
  (body ++ [last]).IsChain (fun a _ => (!ends a) = true) ↔ ∀ a ∈ body, ends a = false
  := by
  induction body with
  | nil => simp
  | cons a body ih =>
    cases body with
    | nil => simp
    | cons b body =>
      rw [List.cons_append, List.cons_append, List.isChain_cons_cons, List.forall_mem_cons,
        ← ih]
      simp

/-- A segment ends with its only element that may close it. -/
theorem exists_of_mem_segments {l segment : List α} (mem : segment ∈ segments ends l) :
  ∃ body last, segment = body ++ [last] ∧ ∀ a ∈ body, ends a = false
  := by
  obtain ⟨body, last, rfl⟩ := List.eq_nil_or_concat'  segment |>.resolve_left
    (List.ne_nil_of_mem_splitBy mem)
  refine ⟨body, last, rfl, ?_⟩
  apply (isChain_segment_iff body last).mp
  apply List.isChain_of_mem_splitBy mem

/-- A list that is put together from closed segments has these segments. -/
theorem segments_flatten
    {pieces : List (List α)}
    (closed : ∀ piece ∈ pieces, ∃ body last, piece = body ++ [last]
      ∧ (∀ a ∈ body, ends a = false) ∧ ends last = true) :
  segments ends pieces.flatten = pieces
  := by
  apply List.splitBy_flatten
  · intro mem
    obtain ⟨body, last, eq, -⟩ := closed [] mem
    simp at eq
  · intro piece mem
    obtain ⟨body, last, rfl, open_body, -⟩ := closed piece mem
    apply (isChain_segment_iff body last).mpr open_body
  · induction pieces with
    | nil => apply List.isChain_nil
    | cons piece pieces ih =>
      rw [List.forall_mem_cons] at closed
      obtain ⟨⟨body, last, rfl, -, closes⟩, closed⟩ := closed
      rw [List.isChain_cons]
      refine ⟨?_, ih closed⟩
      intro next mem
      obtain ⟨body', last', rfl, -⟩ := closed next (List.mem_of_mem_head? mem)
      exact ⟨by simp, by simp, by simp [closes]⟩

/-- Lists are cut alike if they are closed alike. -/
theorem segments_map {ends' : β → Bool} {f : α → β} (same : ∀ a, ends' (f a) = ends a)
    (l : List α) :
  segments ends' (l.map f) = (segments ends l).map (List.map f)
  := by
  have flat : ((segments ends l).map (List.map f)).flatten = l.map f := by
    rw [← List.map_flatten, flatten_segments]
  rw [← flat]
  apply List.splitBy_flatten
  · intro mem
    obtain ⟨segment, mem, empty⟩ := List.mem_map.mp mem
    apply List.ne_nil_of_mem_splitBy mem (List.map_eq_nil_iff.mp empty)
  · rw [List.forall_mem_map]
    intro segment mem
    rw [List.isChain_map]
    simp only [same]
    apply List.isChain_of_mem_splitBy mem
  · rw [List.isChain_map]
    apply (List.isChain_getLast_head_splitBy _ l).imp
    rintro a b ⟨aNonempty, bNonempty, closes⟩
    exact ⟨by simpa using aNonempty, by simpa using bNonempty, by simpa [same] using closes⟩

/-! ### The first segment -/

/-- The first segment of a list goes up to the first closing element. -/
theorem segments_append_cons {body : List α} {last : α} (rest : List α)
    (opened : ∀ a ∈ body, ends a = false) (closes : ends last = true) :
  segments ends (body ++ last :: rest) = (body ++ [last]) :: segments ends rest
  := by
  have isChain := (isChain_segment_iff body last).mpr opened
  have first : segments ends (body ++ [last]) = [body ++ [last]] :=
    List.splitBy_of_isChain (by simp) isChain
  rw [List.append_cons, segments, List.splitBy_append (by simp [closes]), ← segments, first]
  rfl

/-- A list without closing elements is a single segment, unless it is empty. -/
theorem segments_of_forall {l : List α} (nonempty : l ≠ []) (opened : ∀ a ∈ l, ends a = false) :
  segments ends l = [l]
  := by
  obtain ⟨body, last, rfl⟩ := List.eq_nil_or_concat' l |>.resolve_left nonempty
  apply List.splitBy_of_isChain nonempty
  apply (isChain_segment_iff body last).mpr
  intro a mem
  apply opened a (List.mem_append_left _ mem)

/-- What holds of lists without closing elements, and of a list if it holds of what follows its
first closing element, holds of all lists. -/
theorem segments_induction {motive : List α → Prop} (ends : α → Bool)
    (opened : ∀ l, (∀ a ∈ l, ends a = false) → motive l)
    (closed : ∀ body last rest, (∀ a ∈ body, ends a = false) → ends last = true → motive rest →
      motive (body ++ last :: rest)) (l : List α) :
  motive l
  := by
  induction length : l.length using Nat.strongRecOn generalizing l with
  | ind n ih =>
    cases found : l.find? ends with
    | none =>
      apply opened
      simpa using found
    | some last =>
      obtain ⟨closes, body, rest, rfl, bodyOpened⟩ := List.find?_eq_some_iff_append.mp found
      simp only [List.length_append, List.length_cons] at length
      apply closed body last rest (by simpa using bodyOpened) closes
      apply ih rest.length (by omega) rest rfl

/-- Lists are cut alike if a closing element becomes one that closes, and any other element
becomes some that do not. -/
theorem segments_flatMap {ends' : β → Bool} {f : α → List β}
    (opened : ∀ a, ends a = false → f a ≠ [] ∧ ∀ b ∈ f a, ends' b = false)
    (closed : ∀ a, ends a = true → ∃ b, f a = [b] ∧ ends' b = true) (l : List α) :
  segments ends' (l.flatMap f) = (segments ends l).map (List.flatMap f)
  := by
  have openedAll {l : List α} (all : ∀ a ∈ l, ends a = false) :
      ∀ b ∈ l.flatMap f, ends' b = false := by
    intro b mem
    obtain ⟨a, memA, memB⟩ := List.mem_flatMap.mp mem
    apply (opened a (all a memA)).2 b memB
  induction l using segments_induction ends with
  | opened l all =>
    by_cases empty : l = []
    · subst empty
      rfl
    · have nonempty : l.flatMap f ≠ [] := by
        obtain ⟨a, mem⟩ := List.exists_mem_of_ne_nil l empty
        intro none
        apply (opened a (all a mem)).1 (List.flatMap_eq_nil_iff.mp none a mem)
      rw [segments_of_forall empty all, segments_of_forall nonempty (openedAll all)]
      rfl
  | closed body last rest all closes ih =>
    obtain ⟨b, same, closes'⟩ := closed last closes
    rw [segments_append_cons rest all closes, List.flatMap_append, List.flatMap_cons, same,
      List.singleton_append, segments_append_cons _ (openedAll all) closes', ih]
    simp [same]

/-! ### Cuts -/

/-- The pieces of a list that is cut behind each closing element, and nowhere else. -/
structure Cut (ends : α → Bool) (l : List α) (pieces : List (List α)) : Prop where
  flatten : pieces.flatten = l
  nonempty : ∀ piece ∈ pieces, piece ≠ []
  opened : ∀ piece ∈ pieces, ∀ a ∈ piece.dropLast, ends a = false
  closed : ∀ piece ∈ pieces.dropLast, ∀ a ∈ piece.getLast?, ends a = true

/-- The segments of a list are the pieces into which it is cut. -/
theorem cut_segments (l : List α) :
  Cut ends l (segments ends l)
  where
  flatten := flatten_segments l
  nonempty := fun _ => List.ne_nil_of_mem_splitBy
  opened := by
    intro segment mem a memBody
    obtain ⟨body, last, rfl, opened⟩ := exists_of_mem_segments mem
    rw [List.dropLast_concat] at memBody
    apply opened a memBody
  closed := by
    induction l using segments_induction ends with
    | opened l all =>
      by_cases empty : l = []
      · subst empty
        exact nofun
      · rw [segments_of_forall empty all]
        exact nofun
    | closed body last rest all closes ih =>
      rw [segments_append_cons rest all closes]
      by_cases empty : segments ends rest = []
      · rw [empty]
        exact nofun
      · rw [List.dropLast_cons_of_ne_nil empty, List.forall_mem_cons]
        refine ⟨?_, ih⟩
        simp [closes]

end IntScript
