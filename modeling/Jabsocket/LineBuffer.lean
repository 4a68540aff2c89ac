import Jabsocket.Reading
import Jabsocket.Handshake

/-!
# The line buffer of the request parser

`strncpy` leaves no NUL behind a header which fills the line buffer, and the last byte of the
buffer is never written.  Whether the parser stays inside its buffer therefore depends on the
longest text it collects and on what the allocator left in that byte.
-/

namespace Jabsocket

/-- The position and the size which `rq_add_line` passes to `strncpy`, if it gets there. -/
def copyBounds (platform : Platform) (request : Request) : List UInt8 → Option (Nat × Int)
  | [] => none
  | first :: _ =>
      if isspace first then
        let plen := (cstr request.line).length
        some (plen, lineBufferSize - plen - 1)
      else
        (flushLine platform (scanLine request)).map fun request =>
          let plen := (cstr (overwrite request.line 0 [0])).length
          (plen, lineBufferSize - plen - 1)

/-- What a call in `ST_HEADER` does to the line buffer when it stays inside. -/
structure StaysInside (platform : Platform) (request : Request) (line : List UInt8) : Prop where
  terminated : 0 ∈ (rqAddLine platform request line).line
  length_eq : (rqAddLine platform request line).line.length = lineBufferSize
  inside : (rqAddLine platform request line).overrun = false
  bounds : ∀ plen left, copyBounds platform request line = some (plen, left) →
    0 ≤ left ∧ plen + left < 4096

/-- Every call in `ST_HEADER` stays inside the line buffer. -/
def StaysBounded (platform : Platform) (memory : Nat → UInt8) (lines : List (List UInt8)) : Prop :=
  ∀ before line after, lines = before ++ line :: after →
    (before.foldl (rqAddLine platform) (rqCreate memory)).state = .header →
      StaysInside platform (before.foldl (rqAddLine platform) (rqCreate memory)) line

section

variable {platform : Platform} {last : UInt8} {reading : Reading} {request : Request}

/-- Where `strncpy` writes is what the bounds say. -/
theorem line_eq_strncpy {line : List UInt8} {plen : Nat} {left : Int}
    (state_eq : request.state = .header)
    (bounds : copyBounds platform request line = some (plen, left)) :
    ∃ memory string, (rqAddLine platform request line).line =
      strncpy memory plen string left.toNat := by
  cases line with
  | nil => cases bounds
  | cons first rest =>
      cases space : isspace first with
      | true =>
          simp only [copyBounds, space, if_true, Option.some.injEq, Prod.mk.injEq] at bounds
          obtain ⟨rfl, rfl⟩ := bounds
          refine ⟨request.line, rest, ?_⟩
          simp [rqAddLine, state_eq, addHeaderLine, appendLine, space, scanLine]
      | false =>
          simp only [copyBounds, space, Bool.false_eq_true, if_false] at bounds
          obtain ⟨next, flushed, bounds_eq⟩ := Option.map_eq_some_iff.mp bounds
          obtain ⟨rfl, rfl⟩ := Prod.mk.inj bounds_eq
          refine ⟨overwrite next.line 0 [0], first :: rest, ?_⟩
          simp [rqAddLine, state_eq, addHeaderLine, space, flushed, appendLine_of_ink space,
            overwrite_zero, cstr, lineBufferSize]

theorem Tracks.copyBounds_le (tracks : Tracks last reading request)
    (started : reading.started = true) (room : reading.HasRoom last) {line : List UInt8}
    {plen : Nat} {left : Int} (bounds : copyBounds platform request line = some (plen, left)) :
    0 ≤ left ∧ plen + left < 4096 := by
  cases line with
  | nil => cases bounds
  | cons first rest =>
      cases space : isspace first with
      | true =>
          simp only [copyBounds, space, if_true, Option.some.injEq, Prod.mk.injEq] at bounds
          obtain ⟨rfl, rfl⟩ := bounds
          have short := (tracks.collects started).length_le
          rw [tracks.cstr_eq started room, lineBufferSize]
          omega
      | false =>
          simp only [copyBounds, space, Bool.false_eq_true, if_false] at bounds
          obtain ⟨next, flushed, bounds_eq⟩ := Option.map_eq_some_iff.mp bounds
          obtain ⟨rfl, rfl⟩ := Prod.mk.inj bounds_eq
          simp [overwrite_zero, cstr, lineBufferSize]

/-- A call stays inside the line buffer exactly when the text which it leaves there has room. -/
theorem Tracks.staysInside_iff (tracks : Tracks last reading request)
    (room : reading.HasRoom last) {line : List UInt8} (plain : 0 ∉ line) :
    (request.state = .header → StaysInside platform request line) ↔
      (reading.addLine line).HasRoom last := by
  have later := tracks.addLine platform room plain
  cases started : reading.started with
  | false =>
      have state_eq : request.state = .start := by
        rw [tracks.state_eq, started, if_neg (by decide)]
      have empty : (reading.addLine line).current = [] := by
        rw [Reading.addLine, started, if_neg (by decide), Reading.addRequestLine]
        split <;> first | exact tracks.unread started | rfl
      refine iff_of_true (fun header => ?_) (Or.inr (by rw [empty]; decide))
      rw [state_eq] at header
      cases header
  | true =>
      have state_eq : request.state = .header := by
        rw [tracks.state_eq, started, if_pos rfl]
      have still : (reading.addLine line).started = true := by
        rw [Reading.addLine, started, if_pos rfl]
        exact started_addHeaderLine started line
      have terminated_iff := (later.collects still).zero_mem_iff
      refine ⟨fun stays => terminated_iff.mp (stays state_eq).terminated, fun after _ => ?_⟩
      exact ⟨terminated_iff.mpr after, later.length_eq, later.inside,
        fun plen left => tracks.copyBounds_le started room⟩

end

theorem staysBounded_concat {platform : Platform} {memory : Nat → UInt8}
    {lines : List (List UInt8)} {line : List UInt8} :
    StaysBounded platform memory (lines ++ [line]) ↔
      StaysBounded platform memory lines ∧
        ((lines.foldl (rqAddLine platform) (rqCreate memory)).state = .header →
          StaysInside platform (lines.foldl (rqAddLine platform) (rqCreate memory)) line) := by
  constructor
  · intro stays
    refine ⟨fun before other after split => ?_, stays lines line [] rfl⟩
    exact stays before other (after ++ [line]) (by rw [split]; simp)
  · rintro ⟨stays, final⟩ before other after split
    rcases List.eq_nil_or_concat after with rfl | ⟨earlier, tail, rfl⟩
    · obtain ⟨rfl, rfl⟩ := List.append_inj' split rfl |>.imp_right List.singleton_inj.mp
      exact final
    · have split_earlier : lines ++ [line] = (before ++ other :: earlier) ++ [tail] := by
        simpa using split
      obtain ⟨lines_eq, -⟩ := List.append_inj' split_earlier rfl
      exact stays before other earlier lines_eq

/-- There is room for the NUL after every number of lines. -/
def AlwaysRoom (last : UInt8) (lines : List (List UInt8)) : Prop :=
  ∀ count ≤ lines.length, (readLines (lines.take count)).HasRoom last

theorem alwaysRoom_concat {last : UInt8} {lines : List (List UInt8)} {line : List UInt8} :
    AlwaysRoom last (lines ++ [line]) ↔
      AlwaysRoom last lines ∧ (readLines (lines ++ [line])).HasRoom last := by
  constructor
  · intro always
    refine ⟨fun count below => ?_, ?_⟩
    · have room := always count (by simp; omega)
      rwa [List.take_append_of_le_length below] at room
    · have room := always _ (Nat.le_refl _)
      rwa [List.take_length] at room
  · rintro ⟨always, final⟩ count below
    rcases Nat.lt_or_eq_of_le below with earlier | rfl
    · have inside : count ≤ lines.length := by simpa [Nat.lt_add_one_iff] using earlier
      rw [List.take_append_of_le_length inside]
      exact always count inside
    · rwa [List.take_length]

theorem AlwaysRoom.tracks (platform : Platform) {memory : Nat → UInt8}
    {lines : List (List UInt8)} (always : AlwaysRoom (memory 4095) lines)
    (plain : ∀ line ∈ lines, 0 ∉ line) :
    Tracks (memory 4095) (readLines lines) (lines.foldl (rqAddLine platform) (rqCreate memory)) :=
  (tracks_rqCreate memory).foldl platform
    (fun count below => always count (Nat.le_of_lt below)) plain

theorem staysBounded_iff_alwaysRoom (platform : Platform) (memory : Nat → UInt8)
    {lines : List (List UInt8)} (plain : ∀ line ∈ lines, 0 ∉ line) :
    StaysBounded platform memory lines ↔ AlwaysRoom (memory 4095) lines := by
  induction lines using List.reverseRecOn with
  | nil =>
      refine iff_of_true (fun before line after split => ?_) fun count _ => ?_
      · simp at split
      · rw [List.take_nil]
        exact Or.inr (by decide)
  | append_singleton lines line ih =>
      have earlier := ih fun other member => plain other (by simp [member])
      rw [staysBounded_concat, alwaysRoom_concat, earlier, readLines_concat]
      refine and_congr_right fun always => ?_
      have tracks := always.tracks platform fun other member => plain other (by simp [member])
      have room := always lines.length (Nat.le_refl _)
      rw [List.take_length] at room
      exact tracks.staysInside_iff room (plain line (by simp))

/-- The calls stay inside the line buffer exactly when the last byte of the buffer happens to be
zero or no collected text fills the other 4095 bytes. -/
theorem staysBounded_iff (platform : Platform) (memory : Nat → UInt8) {lines : List (List UInt8)}
    (plain : ∀ line ∈ lines, 0 ∉ line) :
    StaysBounded platform memory lines ↔
      memory 4095 = 0 ∨
        ∀ count ≤ lines.length, (readLines (lines.take count)).current.length < 4095 := by
  rw [staysBounded_iff_alwaysRoom platform memory plain]
  simp only [AlwaysRoom, Reading.HasRoom, forall_or_left]

/-- A request whose only header fills the line buffer and is then continued. -/
def fillingLines : List (List UInt8) :=
  [text "GET / HTTP/1.1", text "X:" ++ List.replicate 4093 120, text " y"]

/-- A short request stays inside the line buffer. -/
theorem staysBounded_short :
    (∀ line ∈ [text "GET / HTTP/1.1", text "Host: a", []], 0 ∉ line) ∧
      StaysBounded RequestText.greetingPlatform (fun _ => 255)
        [text "GET / HTTP/1.1", text "Host: a", []] := by
  have plain : ∀ line ∈ [text "GET / HTTP/1.1", text "Host: a", []], 0 ∉ line := by
    decide +kernel
  exact ⟨plain, (staysBounded_iff _ _ plain).mpr (Or.inr (by decide +kernel))⟩

/-- A header of 4095 bytes leaves no NUL in the line buffer. -/
theorem not_staysBounded_filling :
    ¬ StaysBounded RequestText.greetingPlatform (fun _ => 255) fillingLines := by
  intro stays
  have plain : ∀ line ∈ fillingLines, 0 ∉ line := by
    decide +kernel
  have always := (staysBounded_iff_alwaysRoom _ _ plain).mp stays
  exact absurd (always 2 (by decide)) (by decide +kernel)

end Jabsocket
