import Jabsocket.LineBuffer

/-!
# Folded headers

A header may be folded over several lines.  The parser puts the lines together again, so that every
way of folding gives the same request, unless a header without a colon keeps the line buffer and
the lines which continue later headers fill it up.
-/

namespace Jabsocket

namespace RequestText

/-- All the lines of a request. -/
def lines (sent : RequestText) : List (List UInt8) :=
  sent.requestLine :: sent.headerLines ++ [[]]

/-- A request line with three tokens, and header lines whose logical headers the line buffer can
hold.  Nothing is a conversion specification. -/
@[mk_iff] structure Foldable (sent : RequestText) : Prop extends sent.Sendable where
  three_tokens : 3 ≤ (tokens isBlank sent.requestLine).length
  requestLine_plain : 0 ∉ sent.requestLine
  requestLine_literal : 37 ∉ sent.requestLine
  begins : ∀ line ∈ sent.headerLines.head?, isspace (line.headD 0) = false

instance (sent : RequestText) : Decidable sent.Foldable :=
  decidable_of_iff _ (foldable_iff sent).symm

/-- The same request with every logical header on a line of its own. -/
def unfolded (sent : RequestText) : RequestText :=
  { sent with headerLines := logicalLines sent.headerLines }

/-- The parser reads a folded request as its logical headers. -/
structure FoldsAway (platform : Platform) (memory : Nat → UInt8) (sent : RequestText) : Prop where
  inside : (sent.submit platform memory).overrun = false
  done : (sent.submit platform memory).done = true
  error_iff : (sent.submit platform memory).error = true ↔
    ∃ logical ∈ logicalLines sent.headerLines, 58 ∉ logical
  processed : (sent.submit platform memory).error = false →
    ∃ line, sent.submit platform memory =
      { recordHeaders platform (headersOf sent.headerLines)
          (addRequestLine platform (rqCreate memory) sent.requestLine) with
        line, done := true }
  same_fields : (sent.submit platform memory).error = false →
    ∃ line, sent.submit platform memory =
      { sent.unfolded.submit platform memory with line }

/-! ## Unfolding -/

theorem logicalFrom_of_ink {current : List UInt8} {lines : List (List UInt8)}
    (ink : ∀ line ∈ lines, isspace (line.headD 0) = false) :
    logicalFrom current lines = current :: lines := by
  induction lines generalizing current with
  | nil => rfl
  | cons line lines ih =>
      rw [logicalFrom, ink line (by simp), if_neg (by decide),
        ih fun other member => ink other (by simp [member])]

theorem ink_of_mem_logicalFrom {current logical : List UInt8} {lines : List (List UInt8)}
    (nonempty : ∀ line ∈ lines, line ≠ []) (current_nonempty : current ≠ [])
    (ink : isspace (current.headD 0) = false) (member : logical ∈ logicalFrom current lines) :
    isspace (logical.headD 0) = false := by
  induction lines generalizing current with
  | nil =>
      obtain rfl : logical = current := by simpa [logicalFrom] using member
      exact ink
  | cons line lines ih =>
      have later_nonempty : ∀ other ∈ lines, other ≠ [] :=
        fun other found => nonempty other (by simp [found])
      rw [logicalFrom] at member
      split at member
      · obtain ⟨first, rest, rfl⟩ := List.exists_cons_of_ne_nil current_nonempty
        have continued : isspace ((first :: rest ++ line.tail).headD 0) = false := ink
        exact ih later_nonempty (by simp) continued member
      · rename_i begins
        obtain rfl | after := List.mem_cons.mp member
        · exact ink
        · exact ih later_nonempty (nonempty line (by simp)) (by simpa using begins) after

theorem Foldable.ink {sent : RequestText} (foldable : sent.Foldable) {logical : List UInt8}
    (member : logical ∈ logicalLines sent.headerLines) : isspace (logical.headD 0) = false := by
  obtain ⟨found, -⟩ := List.mem_filter.mp member
  have nonempty := foldable.nonempty
  have begins := foldable.begins
  cases split : sent.headerLines with
  | nil =>
      obtain rfl : logical = [] := by simpa [split, logicalFrom] using found
      decide
  | cons line lines =>
      rw [split] at nonempty begins found
      have ink := begins line rfl
      rw [logicalFrom, ink, if_neg (by decide)] at found
      obtain rfl | later := List.mem_cons.mp found
      · decide
      · exact ink_of_mem_logicalFrom (fun other inside => nonempty other (by simp [inside]))
          (nonempty line (by simp)) ink later

theorem Foldable.logicalLines_unfolded {sent : RequestText} (foldable : sent.Foldable) :
    logicalLines sent.unfolded.headerLines = logicalLines sent.headerLines := by
  rw [unfolded, logicalLines, logicalFrom_of_ink fun line => foldable.ink, List.filter_cons]
  simp [logicalLines]

theorem plain_of_mem_logicalLines {lines : List (List UInt8)} (plain : ∀ line ∈ lines, 0 ∉ line)
    {logical : List UInt8} (member : logical ∈ logicalLines lines) : 0 ∉ logical := by
  intro zero
  obtain absent | ⟨line, found, inside⟩ := mem_logicalFrom (List.mem_filter.mp member).1 zero
  · simp at absent
  · exact plain line found inside

theorem Foldable.readable_unfolded {sent : RequestText} (foldable : sent.Foldable)
    (readable : sent.Readable) : sent.unfolded.Readable := by
  have logical_eq := foldable.logicalLines_unfolded
  refine ⟨readable.three_tokens, fun line member => ?_, fun line member => ?_, ?_, ?_, ?_⟩
  · simpa using (List.mem_filter.mp member).2
  · exact plain_of_mem_logicalLines readable.plain member
  · rw [logical_eq]
    exact readable.colon
  · rw [logical_eq]
    exact readable.short
  · rw [logical_eq]
    exact readable.literal

/-! ## Folding is transparent -/

theorem Foldable.plain_lines {sent : RequestText} (foldable : sent.Foldable) :
    ∀ line ∈ sent.lines, 0 ∉ line := by
  intro line member
  obtain rfl | inside | rfl := by simpa [lines] using member
  · exact foldable.requestLine_plain
  · exact foldable.plain line inside
  · simp

theorem Foldable.overrun_iff {sent : RequestText} (foldable : sent.Foldable) (platform : Platform)
    (memory : Nat → UInt8) :
    (sent.submit platform memory).overrun = false ↔
      Reading.fresh.Contained (memory 4095) sent.lines :=
  (tracks_rqCreate memory).overrun_iff platform foldable.plain_lines

theorem Foldable.error_iff {sent : RequestText} (foldable : sent.Foldable) (platform : Platform)
    (memory : Nat → UInt8) :
    (sent.submit platform memory).error = true ↔
      ∃ logical ∈ logicalLines sent.headerLines, 58 ∉ logical := by
  constructor
  · intro error
    by_contra complete
    push Not at complete
    have readable : sent.Readable :=
      ⟨foldable.three_tokens, foldable.nonempty, foldable.plain, complete, foldable.short,
        foldable.literal⟩
    rw [(readable.records platform memory).2.2] at error
    cases error
  · rintro ⟨logical, member, missing⟩
    by_contra clean
    have readable := foldable.toSendable.readable (by simpa using clean)
    exact missing (readable.colon logical member)

/-- The empty line ends the request. -/
theorem Foldable.done {sent : RequestText} (foldable : sent.Foldable) {platform : Platform}
    {memory : Nat → UInt8} (contained : Reading.fresh.Contained (memory 4095) sent.lines) :
    (sent.submit platform memory).done = true := by
  have tracks := (tracks_rqCreate memory).foldl platform contained foldable.plain_lines
  have first : (Reading.fresh.addLine sent.requestLine).started = true := by
    obtain ⟨method, resource, protocol, others, tokens_eq⟩ := exists_tokens foldable.three_tokens
    rw [Reading.addLine, if_neg (by decide), Reading.addRequestLine, tokens_eq]
  have started := started_foldl first sent.headerLines
  calc (sent.submit platform memory).done
    _ = (readLines sent.lines).done := tracks.done_eq
    _ = ((sent.headerLines.foldl Reading.addLine
          (Reading.fresh.addLine sent.requestLine)).addLine []).done := by
      rw [lines, readLines_concat]
      rfl
    _ = true := by
      rw [Reading.addLine, started, if_pos rfl, Reading.addHeaderLine]
      split <;> rfl

/-- Folding is transparent exactly when the line buffer has room for the collected text. -/
theorem foldsAway_iff {sent : RequestText} (foldable : sent.Foldable) (platform : Platform)
    (memory : Nat → UInt8) :
    sent.FoldsAway platform memory ↔
      memory 4095 = 0 ∨
        ∀ count < sent.lines.length,
          (readLines (sent.lines.take count)).current.length < 4095 := by
  rw [← contained_fresh_iff]
  refine ⟨fun folds => (foldable.overrun_iff platform memory).mp folds.inside,
    fun contained => ?_⟩
  have error_iff := foldable.error_iff platform memory
  refine ⟨(foldable.overrun_iff platform memory).mpr contained, foldable.done contained,
    error_iff, fun clean => ?_, fun clean => ?_⟩
  · exact (foldable.toSendable.readable clean).submit_eq platform memory
  · have readable := foldable.toSendable.readable clean
    obtain ⟨line, run⟩ := readable.submit_eq platform memory
    obtain ⟨other, unfolded_run⟩ := (foldable.readable_unfolded readable).submit_eq platform memory
    refine ⟨line, ?_⟩
    rw [run, unfolded_run, headersOf, headersOf, foldable.logicalLines_unfolded]
    rfl

/-- A header without a colon, and a header whose continuation fills the line buffer behind it. -/
def overfolded : RequestText :=
  { requestLine := text "GET / HTTP/1.1"
    headerLines := [text "Host", text "X:", text " " ++ List.replicate 4092 97, text " "] }

/-- Two ways of folding a header. -/
theorem foldsAway_host :
    ({ requestLine := text "GET / HTTP/1.1"
       headerLines := [text "Ho", text " st:", text "  a"] } : RequestText).Foldable ∧
      ({ requestLine := text "GET / HTTP/1.1"
         headerLines := [text "Ho", text " st:", text "  a"] } : RequestText).FoldsAway
        greetingPlatform fun _ => 255 := by
  have foldable : ({ requestLine := text "GET / HTTP/1.1"
                     headerLines := [text "Ho", text " st:", text "  a"] } :
      RequestText).Foldable := by
    decide +kernel
  exact ⟨foldable, (foldsAway_iff foldable _ _).mpr (Or.inr (by decide +kernel))⟩

/-- The parser leaves its line buffer while it reads the header behind the one without a colon. -/
theorem not_foldsAway_overfolded :
    overfolded.Foldable ∧ ¬ overfolded.FoldsAway greetingPlatform fun _ => 255 := by
  have foldable : overfolded.Foldable := by
    decide +kernel
  refine ⟨foldable, fun folds => ?_⟩
  have contained := (foldable.overrun_iff _ _).mp folds.inside
  exact absurd (contained 4 (by decide)) (by decide +kernel)

end RequestText

end Jabsocket
