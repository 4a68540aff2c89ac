import Mathlib.Data.List.Basic

/-!
# Incremental scanners

A scanner looks at the front of the input received so far and asks for more, rejects it, or
splits off one item.  What it decides never depends on input which has not arrived.  This file
proves that the items found do not depend on how the input was cut, and that every grouping of
the items is produced by some cut.
-/

namespace Jabsocket

/-- What a scanner finds at the front of its input. -/
inductive Scan (α ι : Type*) where
  /-- No decision is possible yet. -/
  | more
  /-- The input can never start with an item. -/
  | fail
  /-- One item and the input behind it. -/
  | item (value : ι) (rest : List α)

/-- A scanner whose decisions are stable under further input. -/
structure Scanner (α ι : Type*) where
  /-- Look at the front of the input. -/
  scan : List α → Scan α ι
  /-- Nothing is decided without input. -/
  scan_nil : scan [] = .more
  /-- Further input does not change an item. -/
  scan_item_append : ∀ {input value rest} (later : List α),
    scan input = .item value rest → scan (input ++ later) = .item value (rest ++ later)
  /-- Further input does not repair a rejected front. -/
  scan_fail_append : ∀ {input} (later : List α),
    scan input = .fail → scan (input ++ later) = .fail
  /-- An item is decided by its own part of the input alone. -/
  scan_item_exact : ∀ {input value rest}, scan input = .item value rest →
    ∃ front, input = front ++ rest ∧ scan front = .item value []

/-- A found item, or the point where the scanner rejected its input. -/
inductive Piece (ι : Type*) where
  | item (value : ι)
  | bad
  deriving DecidableEq, Repr

/-- Induction over a group in progress and the groups behind it. -/
@[elab_as_elim]
theorem grouped_induction {ι : Type*} {motive : List ι → List (List ι) → Prop}
    (finish : motive [] [])
    (next : ∀ group groups, motive group groups → motive [] (group :: groups))
    (cons : ∀ piece group groups, motive group groups → motive (piece :: group) groups)
    (group : List ι) (groups : List (List ι)) : motive group groups := by
  induction groups generalizing group with
  | nil =>
      induction group with
      | nil => exact finish
      | cons piece group ih => exact cons piece group [] ih
  | cons later groups outer =>
      induction group with
      | nil => exact next later groups (outer later)
      | cons piece group ih => exact cons piece group (later :: groups) ih

/-- Recognise the rejection point. -/
def Piece.isBad {ι : Type*} : Piece ι → Bool
  | .item _ => false
  | .bad => true

theorem Piece.any_isBad {ι : Type*} (found : List (Piece ι)) :
    found.any Piece.isBad = true ↔ .bad ∈ found := by
  rw [List.any_eq_true]
  constructor
  · rintro ⟨piece, member, bad⟩
    cases piece with
    | item value => simp [Piece.isBad] at bad
    | bad => exact member
  · exact fun member => ⟨.bad, member, rfl⟩

namespace Scanner

variable {α ι : Type*} (scanner : Scanner α ι)

theorem rest_length_lt {input : List α} {value : ι} {rest : List α}
    (found : scanner.scan input = .item value rest) : rest.length < input.length := by
  obtain ⟨front, rfl, exact⟩ := scanner.scan_item_exact found
  cases front with
  | nil => simp [scanner.scan_nil] at exact
  | cons head tail =>
      simp only [List.cons_append, List.length_cons, List.length_append]
      omega

/-- All items at the front of the input, in order. -/
def pieces (input : List α) : List (Piece ι) :=
  match _found : scanner.scan input with
  | .more => []
  | .fail => [.bad]
  | .item value rest => .item value :: pieces rest
termination_by input.length
decreasing_by exact scanner.rest_length_lt _found

/-- The input behind the last item. -/
def residue (input : List α) : List α :=
  match _found : scanner.scan input with
  | .more => input
  | .fail => input
  | .item _ rest => residue rest
termination_by input.length
decreasing_by exact scanner.rest_length_lt _found

variable {scanner}

theorem pieces_more {input : List α} (found : scanner.scan input = .more) :
    scanner.pieces input = [] := by
  rw [pieces]
  split <;> simp_all

theorem pieces_fail {input : List α} (found : scanner.scan input = .fail) :
    scanner.pieces input = [.bad] := by
  rw [pieces]
  split <;> simp_all

theorem pieces_item {input rest : List α} {value : ι}
    (found : scanner.scan input = .item value rest) :
    scanner.pieces input = .item value :: scanner.pieces rest := by
  rw [pieces]
  split <;> simp_all

theorem residue_more {input : List α} (found : scanner.scan input = .more) :
    scanner.residue input = input := by
  rw [residue]
  split <;> simp_all

theorem residue_item {input rest : List α} {value : ι}
    (found : scanner.scan input = .item value rest) :
    scanner.residue input = scanner.residue rest := by
  rw [residue]
  split <;> simp_all

variable (scanner) in
/-- Induction along the items of an input. -/
theorem input_induction {motive : List α → Prop}
    (more : ∀ input, scanner.scan input = .more → motive input)
    (fail : ∀ input, scanner.scan input = .fail → motive input)
    (item : ∀ input value rest, scanner.scan input = .item value rest →
      motive rest → motive input) (input : List α) : motive input := by
  induction bound : input.length using Nat.strongRecOn generalizing input with
  | _ bound ih =>
      cases found : scanner.scan input with
      | more => exact more input found
      | fail => exact fail input found
      | item value rest =>
          have shorter := scanner.rest_length_lt found
          exact item input value rest found (ih rest.length (by omega) rest rfl)

@[simp] theorem pieces_nil : scanner.pieces [] = [] := pieces_more scanner.scan_nil

/-- Once the scanner has rejected its input, further input adds nothing. -/
theorem pieces_append_of_bad {input : List α} (later : List α)
    (rejected : .bad ∈ scanner.pieces input) :
    scanner.pieces (input ++ later) = scanner.pieces input := by
  induction input using scanner.input_induction with
  | more input found => simp [pieces_more found] at rejected
  | fail input found =>
      rw [pieces_fail found, pieces_fail (scanner.scan_fail_append later found)]
  | item input value rest found ih =>
      rw [pieces_item found] at rejected ⊢
      rw [pieces_item (scanner.scan_item_append later found), ih (by simpa using rejected)]

/-- Further input is scanned together with the residue alone. -/
theorem pieces_append {input : List α} (later : List α)
    (accepted : .bad ∉ scanner.pieces input) :
    scanner.pieces (input ++ later) =
      scanner.pieces input ++ scanner.pieces (scanner.residue input ++ later) := by
  induction input using scanner.input_induction with
  | more input found => simp [pieces_more found, residue_more found]
  | fail input found => simp [pieces_fail found] at accepted
  | item input value rest found ih =>
      rw [pieces_item found] at accepted
      rw [pieces_item found, residue_item found,
        pieces_item (scanner.scan_item_append later found), ih (by simp_all)]
      rfl

theorem scan_residue {input : List α} (accepted : .bad ∉ scanner.pieces input) :
    scanner.scan (scanner.residue input) = .more := by
  induction input using scanner.input_induction with
  | more input found => rw [residue_more found, found]
  | fail input found => simp [pieces_fail found] at accepted
  | item input value rest found ih =>
      rw [pieces_item found] at accepted
      rw [residue_item found, ih (by simp_all)]

/-- Feed one chunk behind the residue of the earlier ones; `none` is a rejected input. -/
def feed (scanner : Scanner α ι) : Option (List α) → List α → List (Piece ι) × Option (List α)
  | none, _ => ([], none)
  | some earlier, chunk =>
      let found := scanner.pieces (earlier ++ chunk)
      (found, if found.any Piece.isBad then none else some (scanner.residue (earlier ++ chunk)))

/-- The items completed by each chunk. -/
def groups (scanner : Scanner α ι) :
    Option (List α) → List (List α) → List (List (Piece ι))
  | _, [] => []
  | state, chunk :: chunks =>
      (scanner.feed state chunk).1 :: scanner.groups (scanner.feed state chunk).2 chunks

theorem feed_of_bad {earlier chunk : List α}
    (rejected : .bad ∈ scanner.pieces (earlier ++ chunk)) :
    scanner.feed (some earlier) chunk = (scanner.pieces (earlier ++ chunk), none) := by
  simp only [feed, Piece.any_isBad, rejected, if_true]

theorem feed_of_not_bad {earlier chunk : List α}
    (accepted : .bad ∉ scanner.pieces (earlier ++ chunk)) :
    scanner.feed (some earlier) chunk =
      (scanner.pieces (earlier ++ chunk), some (scanner.residue (earlier ++ chunk))) := by
  simp only [feed, Piece.any_isBad, accepted, if_false]

@[simp] theorem groups_none (chunks : List (List α)) :
    scanner.groups none chunks = List.replicate chunks.length [] := by
  induction chunks with
  | nil => rfl
  | cons chunk chunks ih => simp [groups, feed, ih, List.replicate_succ]

/-- The items found do not depend on how the input was cut. -/
theorem groups_flatten (earlier : List α) (chunks : List (List α))
    (waiting : scanner.scan earlier = .more) :
    (scanner.groups (some earlier) chunks).flatten =
      scanner.pieces (earlier ++ chunks.flatten) := by
  induction chunks generalizing earlier with
  | nil => simp [groups, pieces_more waiting]
  | cons chunk chunks ih =>
      rw [groups, List.flatten_cons, List.flatten_cons, ← List.append_assoc]
      by_cases rejected : .bad ∈ scanner.pieces (earlier ++ chunk)
      · rw [feed_of_bad rejected, pieces_append_of_bad _ rejected]
        simp
      · rw [feed_of_not_bad rejected, pieces_append _ rejected,
          ih _ (scan_residue rejected)]

/-- When every chunk completes few items, the groups are small. -/
theorem length_groups_le {bound : Nat} {earlier : List α} {chunks : List (List α)}
    (waiting : scanner.scan earlier = .more)
    (paced : ∀ fed chunk unfed, chunks = fed ++ chunk :: unfed →
      (scanner.pieces (earlier ++ (fed.flatten ++ chunk))).length ≤
        (scanner.pieces (earlier ++ fed.flatten)).length + bound) :
    ∀ group ∈ scanner.groups (some earlier) chunks, group.length ≤ bound := by
  induction chunks generalizing earlier with
  | nil => simp [groups]
  | cons chunk chunks ih =>
      have first : (scanner.pieces (earlier ++ chunk)).length ≤ bound := by
        simpa [pieces_more waiting] using paced [] chunk chunks rfl
      rw [groups]
      by_cases rejected : .bad ∈ scanner.pieces (earlier ++ chunk)
      · rw [feed_of_bad rejected, groups_none]
        intro group member
        obtain rfl | rest := List.mem_cons.mp member
        · exact first
        · rw [List.eq_of_mem_replicate rest]
          exact Nat.zero_le _
      · rw [feed_of_not_bad rejected]
        intro group member
        obtain rfl | rest := List.mem_cons.mp member
        · exact first
        · refine ih (scan_residue rejected) (fun fed next unfed split_chunks => ?_) group rest
          have next_paced := paced (chunk :: fed) next unfed (by rw [split_chunks]; rfl)
          rw [List.flatten_cons, List.append_assoc, ← List.append_assoc, ← List.append_assoc earlier,
            pieces_append _ rejected, pieces_append _ rejected, List.length_append,
            List.length_append] at next_paced
          omega

end Scanner
end Jabsocket
