import Jabsocket.Opening
import Jabsocket.Outbox
import Jabsocket.Response

/-!
# The test client

`WSClient.py` reads the response line by line and then frame by frame, and keeps what it has read
too much.  However the network cuts what a server sends, the client finds the lines of the response
and the frames behind it, as long as their payloads are short: the length of a longer payload is
never decoded.
-/

namespace Jabsocket

/-! ## Reading from the socket -/

/-- The bytes which were read and not used, and what the next calls of `recv` return. -/
structure Client where
  buffer : List UInt8
  incoming : List (List UInt8)
  deriving DecidableEq, Repr

/-- How a method of the client ends. -/
inductive Ended (α : Type*) where
  | returned (value : α) (client : Client)
  /-- Nothing arrives in time. -/
  | timeout (client : Client)
  /-- Another exception. -/
  | raised
  /-- The method is still running after the given number of rounds. -/
  | running
  deriving DecidableEq, Repr

/-- What a method finds in the bytes which were read. -/
inductive Attempt (α : Type*) where
  | more
  | found (value : α) (rest : List UInt8)
  | raised
  | running
  deriving DecidableEq, Repr

/-- Read until something is found; `closed` is returned when the server has closed the
connection. -/
def receiveUntil {α : Type*} (find : List UInt8 → Attempt α) (closed : α) (buffer : List UInt8)
    (incoming : List (List UInt8)) : Ended α :=
  match find buffer with
  | .found value rest => .returned value { buffer := rest, incoming }
  | .raised => .raised
  | .running => .running
  | .more =>
      match incoming with
      | [] => .timeout { buffer, incoming := [] }
      | chunk :: later =>
          if chunk = [] then .returned closed { buffer, incoming := later }
          else receiveUntil find closed (buffer ++ chunk) later

/-- What is still to be used. -/
def Client.unused (client : Client) : List UInt8 :=
  client.buffer ++ client.incoming.flatten

/-- The server has not closed the connection. -/
def Client.Alive (client : Client) : Prop :=
  ∀ chunk ∈ client.incoming, chunk ≠ []

instance (client : Client) : Decidable client.Alive :=
  inferInstanceAs (Decidable (∀ chunk ∈ client.incoming, chunk ≠ []))

theorem Client.eq_empty (client : Client) (alive : client.Alive) (nothing : client.unused = []) :
    client = { buffer := [], incoming := [] } := by
  obtain ⟨buffer_eq, incoming_eq⟩ := List.append_eq_nil_iff.mp nothing
  have none_left : client.incoming = [] := by
    refine List.eq_nil_iff_forall_not_mem.mpr fun chunk member => ?_
    exact alive chunk member (List.flatten_eq_nil_iff.mp incoming_eq chunk member)
  rw [← buffer_eq, ← none_left]

/-- The client reads on until all bytes of an item were read. -/
theorem receiveUntil_item {α : Type*} {find : List UInt8 → Attempt α} {item : List UInt8}
    (more : ∀ data, data <+: item → data ≠ item → find data = .more) (closed : α)
    {buffer rest : List UInt8} {incoming : List (List UInt8)}
    (alive : ∀ chunk ∈ incoming, chunk ≠ [])
    (arrives : buffer ++ incoming.flatten = item ++ rest) :
    ∃ client : Client, client.Alive ∧ client.unused = rest ∧
      receiveUntil find closed buffer incoming =
        receiveUntil find closed (item ++ client.buffer) client.incoming := by
  induction incoming generalizing buffer with
  | nil =>
      rw [List.flatten_nil, List.append_nil] at arrives
      exact ⟨{ buffer := rest, incoming := [] }, alive, List.append_nil rest, by rw [arrives]⟩
  | cons chunk later ih =>
      rcases List.prefix_or_prefix_of_prefix ⟨_, arrives⟩ ⟨rest, rfl⟩ with short | ⟨extra, rfl⟩
      · by_cases whole : buffer = item
        · subst whole
          refine ⟨{ buffer := [], incoming := chunk :: later }, alive, ?_, ?_⟩
          · exact List.append_cancel_left arrives
          · rw [List.append_nil]
        · have unfinished : receiveUntil find closed buffer (chunk :: later) =
              receiveUntil find closed (buffer ++ chunk) later := by
            rw [receiveUntil, more buffer short whole]
            simp only [if_neg (alive chunk List.mem_cons_self)]
          rw [unfinished]
          refine ih (fun other member => alive other (List.mem_cons_of_mem chunk member)) ?_
          rw [← arrives, List.flatten_cons, List.append_assoc]
      · refine ⟨{ buffer := extra, incoming := chunk :: later }, alive, ?_, rfl⟩
        rw [List.append_assoc] at arrives
        exact List.append_cancel_left arrives

/-- A value is found exactly when all bytes of its item were read. -/
structure Recognizes {α : Type*} (find : List UInt8 → Attempt α) (item : List UInt8) (value : α) :
    Prop where
  found : ∀ rest, find (item ++ rest) = .found value rest
  more : ∀ data, data <+: item → data ≠ item → find data = .more

/-- However the bytes of an item arrive, its value is returned and the rest is kept. -/
theorem Recognizes.returned {α : Type*} {find : List UInt8 → Attempt α} {item : List UInt8}
    {value : α} (recognizes : Recognizes find item value) (closed : α) {rest : List UInt8}
    {client : Client} (alive : client.Alive) (arrives : client.unused = item ++ rest) :
    ∃ final, receiveUntil find closed client.buffer client.incoming = .returned value final ∧
      final.unused = rest ∧ final.Alive := by
  obtain ⟨final, alive', unused_eq, outcome⟩ :=
    receiveUntil_item recognizes.more closed alive arrives
  refine ⟨final, ?_, unused_eq, alive'⟩
  rw [outcome, receiveUntil.eq_def, recognizes.found]

/-! ## Lines -/

/-- `split` at the first CR LF, if there is one. -/
def splitCrlf : List UInt8 → Option (List UInt8 × List UInt8)
  | [] => none
  | byte :: bytes =>
      if byte = 13 ∧ bytes.head? = some 10 then some ([], bytes.tail)
      else (splitCrlf bytes).map fun split => (byte :: split.1, split.2)

/-- A line in the bytes which were read. -/
def findLine (buffer : List UInt8) : Attempt (List UInt8) :=
  match splitCrlf buffer with
  | none => .more
  | some split => .found split.1 split.2

/-- `recvLine`. -/
def recvLine (client : Client) : Ended (List UInt8) :=
  receiveUntil findLine [] client.buffer client.incoming

/-- The loop of `recvHandshakeResponse`, with the lines so far. -/
def recvLines : Nat → List (List UInt8) → Client → Ended (List (List UInt8))
  | 0, _, _ => .running
  | rounds + 1, lines, client =>
      match recvLine client with
      | .returned line client =>
          if line = [] then .returned (lines ++ [line]) client
          else recvLines rounds (lines ++ [line]) client
      | .timeout client => .timeout client
      | .raised => .raised
      | .running => .running

/-- `recvHandshakeResponse`. -/
def recvHandshakeResponse (rounds : Nat) (client : Client) : Ended (List (List UInt8)) :=
  recvLines rounds [] client

theorem splitCrlf_line {line : List UInt8} (single : 10 ∉ line) (rest : List UInt8) :
    splitCrlf (line ++ 13 :: 10 :: rest) = some (line, rest) := by
  induction line with
  | nil => rfl
  | cons byte line ih =>
      rw [List.mem_cons, not_or] at single
      have inside : ¬ (byte = 13 ∧ (line ++ 13 :: 10 :: rest).head? = some 10) := by
        rintro ⟨-, lineFeed⟩
        cases line with
        | nil => cases lineFeed
        | cons next line =>
            rw [List.cons_append, List.head?_cons, Option.some.injEq] at lineFeed
            exact single.2 (lineFeed ▸ List.mem_cons_self)
      rw [List.cons_append, splitCrlf, if_neg inside, ih single.2, Option.map_some]

theorem splitCrlf_of_notMem {data : List UInt8} (single : 10 ∉ data) : splitCrlf data = none := by
  induction data with
  | nil => rfl
  | cons byte data ih =>
      rw [List.mem_cons, not_or] at single
      have inside : ¬ (byte = 13 ∧ data.head? = some 10) := by
        rintro ⟨-, lineFeed⟩
        exact single.2 (List.mem_of_head? lineFeed)
      rw [splitCrlf, if_neg inside, ih single.2, Option.map_none]

theorem recognizes_line {line : List UInt8} (single : 10 ∉ line) :
    Recognizes findLine (line ++ [13, 10]) line where
  found rest := by
    rw [findLine, List.append_assoc, List.cons_append, List.singleton_append,
      splitCrlf_line single]
  more data beginning proper := by
    have unfinished : 10 ∉ data := by
      have inside : data <+: line ++ [13] := by
        rw [show line ++ [13, 10] = (line ++ [13]) ++ [10] by simp] at beginning proper
        rcases List.prefix_concat_iff.mp beginning with whole | inside
        · exact absurd whole proper
        · exact inside
      intro lineFeed
      have member := inside.subset lineFeed
      rw [List.mem_append, List.mem_singleton] at member
      rcases member with member | member
      · exact single member
      · cases member
    rw [findLine, splitCrlf_of_notMem unfinished]

/-- The lines of a response are returned with the empty line at their end. -/
theorem recvLines_response {lines : List (List UInt8)} (nonempty : ∀ line ∈ lines, line ≠ [])
    (single : ∀ line ∈ lines, 10 ∉ line) (earlier : List (List UInt8)) {client : Client}
    (alive : client.Alive) {rest : List UInt8}
    (arrives : client.unused = wireLines (lines ++ [[]]) ++ rest) {rounds : Nat}
    (enough : lines.length < rounds) :
    ∃ final, recvLines rounds earlier client = .returned (earlier ++ (lines ++ [[]])) final ∧
      final.unused = rest ∧ final.Alive := by
  induction lines generalizing earlier client rounds with
  | nil =>
      obtain ⟨rounds, rfl⟩ : ∃ fewer, rounds = fewer + 1 := ⟨rounds - 1, by simp at enough; omega⟩
      obtain ⟨final, read, unused_eq, alive'⟩ :=
        (@recognizes_line [] List.not_mem_nil).returned [] alive arrives
      refine ⟨final, ?_, unused_eq, alive'⟩
      rw [recvLines, recvLine, read]
      rfl
  | cons line lines ih =>
      obtain ⟨rounds, rfl⟩ : ∃ fewer, rounds = fewer + 1 := ⟨rounds - 1, by simp at enough; omega⟩
      obtain ⟨first, others⟩ := List.forall_mem_cons.mp nonempty
      obtain ⟨here, later⟩ := List.forall_mem_cons.mp single
      have arrives' : client.unused = line ++ [13, 10] ++ (wireLines (lines ++ [[]]) ++ rest) := by
        rw [← List.append_assoc]
        exact arrives
      obtain ⟨next, read, unused_eq, alive'⟩ := (recognizes_line here).returned [] alive arrives'
      have enough' : lines.length < rounds := Nat.lt_of_succ_lt_succ enough
      obtain ⟨final, returned, kept⟩ := ih others later (earlier ++ [line]) alive' unused_eq enough'
      refine ⟨final, ?_, kept⟩
      rw [recvLines, recvLine, read]
      simp only [if_neg first, returned, List.append_assoc, List.cons_append, List.nil_append]

/-! ## Frames -/

/-- One round of the loop of `decode_number` with `n` and `i`; nothing is assigned to `i`. -/
def numberRound (buffer : List UInt8) (state : Nat × Int) : Round (Nat × Int) :=
  if 0 ≤ state.2 then .again (256 * state.1 + (byteAt buffer state.2.toNat).toNat, state.2)
  else .leave state

/-- `decode_number`, with a bound on the number of rounds. -/
def decodeNumber (rounds : Nat) (buffer : List UInt8) : Option Nat :=
  (Loop.iterate (numberRound buffer) rounds (0, buffer.length - 1)).map Prod.fst

/-- The dictionary which `recvFrame` returns. -/
structure ReceivedFrame where
  fin : Nat
  opcode : Nat
  data : List UInt8
  deriving DecidableEq, Repr

/-- A frame in the bytes which were read.  The function which would unmask it is not defined. -/
def findFrame (rounds : Nat) (buffer : List UInt8) : Attempt (Option ReceivedFrame) :=
  if 1 < buffer.length then
    let by0 := byteAt buffer 0
    let by1 := byteAt buffer 1
    if by0 &&& 0x70 ≠ 0 then .raised
    else
      let l := (by1 &&& 0x7f).toNat
      let headerLength := if l < 126 then 2 else if l = 126 then 4 else 10
      if headerLength ≤ buffer.length then
        let decoded :=
          if l < 126 then some l
          else decodeNumber rounds ((buffer.take headerLength).drop 2)
        match decoded with
        | none => .running
        | some length =>
            let keyLength := if by1 &&& 0x80 ≠ 0 then 4 else 0
            if headerLength + length + keyLength ≤ buffer.length then
              if by1 &&& 0x80 ≠ 0 then .raised
              else
                .found
                  (some
                    { fin := (by0 &&& 0x80).toNat / 128
                      opcode := (by0 &&& 0x0f).toNat
                      data := (buffer.drop headerLength).take length })
                  (buffer.drop (headerLength + length))
            else .more
      else .more
  else .more

/-- `recvFrame`. -/
def recvFrame (rounds : Nat) (client : Client) : Ended (Option ReceivedFrame) :=
  receiveUntil (findFrame rounds) none client.buffer client.incoming

/-- Calls of `recvFrame`, one for each frame. -/
def recvFrames (rounds : Nat) : Nat → Client → Ended (List ReceivedFrame)
  | 0, client => .returned [] client
  | count + 1, client =>
      match recvFrame rounds client with
      | .returned (some frame) client =>
          match recvFrames rounds count client with
          | .returned frames client => .returned (frame :: frames) client
          | other => other
      | .returned none client => .returned [] client
      | .timeout client => .timeout client
      | .raised => .raised
      | .running => .running

/-- `decode_number` does not return. -/
theorem decodeNumber_eq_none {buffer : List UInt8} (nonempty : buffer ≠ []) (rounds : Nat) :
    decodeNumber rounds buffer = none := by
  have positive := List.length_pos_of_ne_nil nonempty
  rw [decodeNumber, Option.map_eq_none_iff]
  have stays : ∀ state : Nat × Int, state.2 = buffer.length - 1 →
      ∃ next, numberRound buffer state = .again next ∧ next.2 = buffer.length - 1 := by
    intro state last
    refine ⟨(256 * state.1 + (byteAt buffer state.2.toNat).toNat, state.2), ?_, last⟩
    rw [numberRound, if_pos (by omega)]
  exact Loop.iterate_eq_none stays rfl rounds

/-- What the header of a frame with a short payload says. -/
theorem findFrame_short (rounds : Nat) {opcode : Nat} (bound : opcode < 16) {size : Nat}
    (short : size ≤ 125) (tail : List UInt8) :
    findFrame rounds (opcodeByte opcode :: UInt8.ofNat size :: tail) =
      if size ≤ tail.length then
        .found (some { fin := 1, opcode, data := tail.take size }) (tail.drop size)
      else .more := by
  obtain ⟨plain, final, opcode_eq⟩ := opcodeByte_decodes bound
  obtain ⟨size_eq, unmasked⟩ := shortLength_decodes short
  have fin_eq : (opcodeByte opcode &&& 0x80).toNat / 128 = 1 := by
    revert opcode
    decide
  have small : size < 126 := by omega
  simp only [findFrame, byteAt, List.getD_cons_zero, List.getD_cons_succ, plain, opcode_eq, fin_eq,
    size_eq, unmasked, if_pos small, ne_eq, not_true_eq_false, if_false,
    List.length_cons, List.drop_succ_cons, List.drop_zero]
  rw [if_pos (by omega), if_pos (by omega)]
  by_cases complete : size ≤ tail.length
  · rw [if_pos complete, if_pos (by omega), Nat.add_comm 2 size]
    rfl
  · rw [if_neg complete, if_neg (by omega)]

/-- A frame with a short payload is found as it was written. -/
theorem recognizes_frame (rounds : Nat) {opcode : Nat} (bound : opcode < 16) {payload : List UInt8}
    (short : payload.length ≤ 125) :
    Recognizes (findFrame rounds) (frameBytes opcode payload)
      (some { fin := 1, opcode, data := payload }) := by
  have bytes_eq : frameBytes opcode payload =
      opcodeByte opcode :: UInt8.ofNat payload.length :: payload := by
    rw [frameBytes, lengthBlock, if_pos short]
    rfl
  rw [bytes_eq]
  constructor
  · intro rest
    rw [List.cons_append, List.cons_append, findFrame_short rounds bound short, if_pos (by simp),
      List.take_left, List.drop_left]
  · intro data beginning proper
    rcases data with _ | ⟨first, _ | ⟨second, tail⟩⟩
    · rfl
    · rfl
    · obtain ⟨rfl, behind⟩ := List.cons_prefix_cons.mp beginning
      obtain ⟨rfl, inside⟩ := List.cons_prefix_cons.mp behind
      have shorter : tail.length < payload.length := by
        refine Nat.lt_of_le_of_ne inside.length_le fun same => ?_
        rw [inside.eq_of_length same] at proper
        exact proper rfl
      rw [findFrame_short rounds bound short, if_neg (by omega)]

/-- What is found behind a header with an extended length. -/
theorem findFrame_long (rounds : Nat) {opcode : Nat} (bound : opcode < 16) {second : UInt8}
    {width : Nat} (extended : second = 126 ∧ width = 2 ∨ second = 127 ∧ width = 8)
    (tail : List UInt8) :
    findFrame rounds (opcodeByte opcode :: second :: tail) =
      if width ≤ tail.length then .running else .more := by
  obtain ⟨plain, -, -⟩ := opcodeByte_decodes bound
  have undecoded : ∀ width, 0 < width → width ≤ tail.length →
      decodeNumber rounds
        (((opcodeByte opcode :: second :: tail).take (width + 2)).drop 2) = none := by
    intro width positive enough
    refine decodeNumber_eq_none (List.ne_nil_of_length_pos ?_) rounds
    simp only [List.length_drop, List.length_take, List.length_cons]
    omega
  unfold findFrame
  rw [if_pos (by simp)]
  simp only [byteAt, List.getD_cons_zero, List.getD_cons_succ, plain, ne_eq, not_true_eq_false,
    if_false, List.length_cons]
  obtain ⟨rfl, rfl⟩ | ⟨rfl, rfl⟩ := extended
  · rw [show ((126 : UInt8) &&& 0x7f).toNat = 126 from rfl]
    by_cases complete : 2 ≤ tail.length
    · have stuck := undecoded 2 (by omega) complete
      simp only [Nat.lt_irrefl, if_false, if_true, if_pos complete, stuck]
      rw [if_pos (by omega)]
    · simp only [Nat.lt_irrefl, if_false, if_true, if_neg complete]
      rw [if_neg (by omega)]
  · rw [show ((127 : UInt8) &&& 0x7f).toNat = 127 from rfl]
    have large : ¬ 127 < 126 := by omega
    have other : ¬ 127 = 126 := by omega
    by_cases complete : 8 ≤ tail.length
    · have stuck := undecoded 8 (by omega) complete
      simp only [if_neg large, if_neg other, if_pos complete, stuck]
      rw [if_pos (by omega)]
    · simp only [if_neg large, if_neg other, if_neg complete]
      rw [if_neg (by omega)]

/-- `recvFrame` does not return when a frame with a longer payload arrives. -/
theorem recvFrame_long (rounds : Nat) {opcode : Nat} (bound : opcode < 16) {payload : List UInt8}
    (long : 125 < payload.length) {client : Client} (alive : client.Alive) {rest : List UInt8}
    (arrives : client.unused = frameBytes opcode payload ++ rest) :
    recvFrame rounds client = .running := by
  obtain ⟨second, width, extra, extended, width_eq, block_eq⟩ :
      ∃ second width extra, (second = 126 ∧ width = 2 ∨ second = 127 ∧ width = 8) ∧
        extra.length = width ∧ lengthBlock payload.length = second :: extra := by
    unfold lengthBlock
    rw [if_neg (by omega)]
    split_ifs
    · exact ⟨126, 2, _, Or.inl ⟨rfl, rfl⟩, rfl, rfl⟩
    · exact ⟨127, 8, _, Or.inr ⟨rfl, rfl⟩, rfl, rfl⟩
  have item_eq : frameBytes opcode payload ++ rest =
      (opcodeByte opcode :: second :: extra) ++ (payload ++ rest) := by
    rw [frameBytes, block_eq]
    simp
  have more : ∀ data, data <+: opcodeByte opcode :: second :: extra →
      data ≠ opcodeByte opcode :: second :: extra → findFrame rounds data = .more := by
    intro data beginning proper
    rcases data with _ | ⟨first, _ | ⟨other, tail⟩⟩
    · rfl
    · rfl
    · obtain ⟨rfl, behind⟩ := List.cons_prefix_cons.mp beginning
      obtain ⟨rfl, inside⟩ := List.cons_prefix_cons.mp behind
      have shorter : tail.length < extra.length := by
        refine Nat.lt_of_le_of_ne inside.length_le fun same => ?_
        rw [inside.eq_of_length same] at proper
        exact proper rfl
      rw [findFrame_long rounds bound extended, if_neg (by omega)]
  obtain ⟨final, -, -, outcome⟩ :=
    receiveUntil_item more none alive (arrives.trans item_eq)
  rw [recvFrame, outcome, receiveUntil.eq_def, List.cons_append, List.cons_append,
    findFrame_long rounds bound extended, if_pos (by rw [List.length_append]; omega)]

/-- However the bytes arrive, `recvFrame` returns a frame of the server with a short payload and
keeps what is behind it, and it runs on for ever when the payload is longer. -/
theorem recvFrame_frame {opcode : Nat} (bound : opcode < 16) {payload : List UInt8}
    {client : Client} (alive : client.Alive) {rest : List UInt8}
    (arrives : client.unused = frameBytes opcode payload ++ rest) :
    (payload.length ≤ 125 → ∀ rounds, ∃ final,
      recvFrame rounds client = .returned (some { fin := 1, opcode, data := payload }) final ∧
        final.unused = rest ∧ final.Alive) ∧
      (125 < payload.length → ∀ rounds, recvFrame rounds client = .running) :=
  ⟨fun short rounds => (recognizes_frame rounds bound short).returned none alive arrives,
    fun long rounds => recvFrame_long rounds bound long alive arrives⟩

/-- A frame with a payload of 126 bytes arrives. -/
def longClient : Client :=
  { buffer := [], incoming := [frameBytes opcodePong (List.replicate 126 97)] }

/-- A payload of 126 bytes is too long, one of two bytes is returned. -/
theorem recvFrame_frame_lengths :
    (∀ rounds, recvFrame rounds longClient = .running) ∧
      ∃ final, recvFrame 1 { buffer := [0x8A], incoming := [[2, 104], [105, 0x81]] } =
          .returned (some { fin := 1, opcode := opcodePong, data := [104, 105] }) final ∧
        final.unused = [0x81] ∧ final.Alive := by
  constructor
  · exact (@recvFrame_frame opcodePong (by decide) (List.replicate 126 97) longClient
      (by decide +kernel) [] (by decide +kernel)).2 (by decide +kernel)
  · exact (@recvFrame_frame opcodePong (by decide) [104, 105]
      { buffer := [0x8A], incoming := [[2, 104], [105, 0x81]] } (by decide +kernel) [0x81]
      rfl).1 (by decide) 1

/-- Frames with short payloads are returned one after the other. -/
theorem recvFrames_frames (rounds : Nat) {frames : List (Fin 16 × List UInt8)}
    (short : ∀ frame ∈ frames, frame.2.length ≤ 125) {client : Client} (alive : client.Alive)
    {rest : List UInt8}
    (arrives : client.unused = (frames.flatMap fun frame => frameBytes frame.1 frame.2) ++ rest) :
    ∃ final, recvFrames rounds frames.length client =
        .returned (frames.map fun frame => { fin := 1, opcode := frame.1, data := frame.2 }) final ∧
      final.unused = rest ∧ final.Alive := by
  induction frames generalizing client with
  | nil => exact ⟨client, rfl, arrives, alive⟩
  | cons frame frames ih =>
      obtain ⟨first, others⟩ := List.forall_mem_cons.mp short
      rw [List.flatMap_cons, List.append_assoc] at arrives
      obtain ⟨next, read, unused_eq, alive'⟩ :=
        (recognizes_frame rounds frame.1.isLt first).returned none alive arrives
      obtain ⟨final, returned, kept⟩ := ih others alive' unused_eq
      refine ⟨final, ?_, kept⟩
      rw [List.length_cons, recvFrames, recvFrame, read]
      simp only [returned, List.map_cons]

/-! ## A session with the server -/

namespace RequestText

variable {platform : Platform} {sent : RequestText}

/-- An answer has an empty line at its end and no other. -/
theorem answer_lines (sent : RequestText) (platform : Platform) (verdict : Verdict) :
    ∃ lines, sent.answer platform verdict = lines ++ [[]] ∧ lines.length < 6 ∧
      ∀ line ∈ lines, line ≠ [] := by
  cases verdict with
  | methodNotAllowed => exact ⟨[text "HTTP/1.1 405 Method Not Allowed"], rfl, by decide, by decide⟩
  | forbidden => exact ⟨[text "HTTP/1.1 403 Forbidden"], rfl, by decide, by decide⟩
  | badRequest => exact ⟨[text "HTTP/1.1 400 Bad Request"], rfl, by decide, by decide⟩
  | notFound => exact ⟨[text "HTTP/1.1 404 Not Found"], rfl, by decide, by decide⟩
  | upgradeRequired =>
      exact ⟨[text "HTTP/1.1 426 Upgrade Required", text "Sec-WebSocket-Version: 13"], rfl,
        by decide, by decide⟩
  | accepted =>
      refine ⟨[text "HTTP/1.1 101 Switching Protocols", text "Upgrade: websocket",
        text "Connection: " ++ lastOf sent.values.connection,
        text "Sec-WebSocket-Accept: " ++ sent.acceptValue platform,
        text "Sec-WebSocket-Protocol: xmpp"], rfl, by simp, ?_⟩
      simp only [List.mem_cons, List.not_mem_nil, or_false, forall_eq_or_imp, forall_eq]
      refine ⟨by decide, by decide, ?_, ?_, by decide⟩
      · exact List.append_ne_nil_of_left_ne_nil (by decide) _
      · exact List.append_ne_nil_of_left_ne_nil (by decide) _

end RequestText

section

variable {env : Environment} {sent : RequestText}

/-- The response is queued. -/
theorem queued_wsconnHandshake (digest : ∀ bytes, (env.platform.sha1 bytes).length = 20)
    (fits : sent.Fits) :
    (wsconnHandshake env
      { wsconnCreate env with req := sent.submit env.platform env.memory }).queued =
        [.response (wireLines
          (sent.answer env.platform (sent.verdict env.platform env.conf)))] := by
  obtain ⟨response_eq, -⟩ := fits.analysis_eq env.memory env.conf digest
  rw [wsconnHandshake_eq, ← response_eq]
  split_ifs
  · rfl
  · rw [show (wsconnClose _).queued = _ from congrArg Prod.fst (queues_wsconnClose _),
      List.append_nil]
    rfl

/-- What was queued stays queued. -/
theorem queued_isPrefix {conn final : Conn} {labels : List Label}
    (execution : Execution.run (connStep env) conn labels = some final) :
    conn.queued <+: final.queued := by
  have kept := @exchange_of_run env conn (fun exchange => conn.queued <+: exchange.2) ?_ labels
    final (List.prefix_refl _) execution
  · exact kept
  · intro reading before after beginning evolves
    cases evolves with
    | answer => exact beginning.trans (List.prefix_append _ _)
    | stanza => exact beginning.trans (List.prefix_append _ _)
    | _ => exact beginning

/-- However the network cuts what a server sends, a client which has received all of it is returned
the lines of the answer to its request and then every frame which the server has queued, as long as
their payloads are short. -/
theorem client_reads_session (digest : ∀ bytes, (env.platform.sha1 bytes).length = 20)
    (fits : sent.Fits) (lines : ∀ line ∈ sent.requestLine :: sent.headerLines, 10 ∉ line)
    {requestReads : List (List UInt8 × Bool)} (nonempty : ∀ read ∈ requestReads, read.1 ≠ [])
    (request : arrived requestReads = wireLines (sent.requestLine :: sent.headerLines ++ [[]]))
    {labels : List Label} {final : Conn}
    (execution :
      Execution.run (connStep env) (wsconnCreate env) (readLabels requestReads ++ labels) =
        some final)
    (flushed : final.pending = [])
    (short : ∀ opcode payload, .frame opcode payload ∈ final.queued → payload.length ≤ 125)
    {incoming : List (List UInt8)} (alive : ∀ chunk ∈ incoming, chunk ≠ [])
    (received : incoming.flatten =
      sentBytes env (wsconnCreate env) (readLabels requestReads ++ labels)) (rounds : Nat) :
    ∃ (frames : List (Fin 16 × List UInt8)) (client : Client),
      (final.queued.tail = frames.map fun frame => .frame frame.1 frame.2) ∧
      recvHandshakeResponse 6 { buffer := [], incoming } =
        .returned (sent.answer env.platform (sent.verdict env.platform env.conf)) client ∧
      recvFrames rounds frames.length client =
        .returned (frames.map fun frame => { fin := 1, opcode := frame.1, data := frame.2 })
          { buffer := [], incoming := [] } := by
  obtain ⟨conn, opened, later⟩ := Execution.run_append.mp execution
  have conn_eq := Option.some.inj (opened.symm.trans (run_request env fits lines nonempty request))
  obtain ⟨writes, queued_eq⟩ := queued_isPrefix later
  rw [conn_eq, queued_wsconnHandshake digest fits, List.singleton_append] at queued_eq
  obtain ⟨gone, phase⟩ := phase_of_reachable ⟨_, execution⟩
  obtain ⟨closed, accepted, progress, tracks, -⟩ := phase.closable.tracks
  obtain ⟨-, nothing⟩ | ⟨-, response, frames, follow⟩ := History.frames_follow tracks
  · rw [nothing] at queued_eq
    cases queued_eq
  obtain ⟨response_eq, rfl⟩ : Write.response _ = .response response ∧ writes = _ :=
    List.cons.inj (queued_eq.trans follow)
  have accounted := run_sent_append_pending execution (show [] ++ _ = _ from rfl)
  rw [List.nil_append, flushed, List.append_nil, ← received, Conn.wire, ← queued_eq,
    List.flatMap_cons, List.flatMap_map] at accounted
  obtain ⟨answered, answer_eq, few, filled⟩ :=
    sent.answer_lines env.platform (sent.verdict env.platform env.conf)
  have single : ∀ line ∈ answered, 10 ∉ line := by
    intro line member
    refine @RequestText.notMem_answer env.platform sent 10 (by decide)
      (fun header member => lines header (List.mem_cons_of_mem _ member))
      (sent.verdict env.platform env.conf) line ?_
    rw [answer_eq]
    exact List.mem_append_left _ member
  obtain ⟨client, answered_eq, unused_eq, alive'⟩ := @recvLines_response answered filled single []
    { buffer := [], incoming } alive _ (accounted.trans (by rw [answer_eq]; rfl)) 6 few
  have short_frames : ∀ frame ∈ frames, frame.2.length ≤ 125 := by
    intro frame member
    refine short frame.1 frame.2 ?_
    rw [← queued_eq]
    exact List.mem_cons_of_mem _ (List.mem_map_of_mem member)
  obtain ⟨last, frames_eq, nothing, alive_last⟩ :=
    @recvFrames_frames rounds frames short_frames client alive' []
      (unused_eq.trans (List.append_nil _).symm)
  refine ⟨frames, client, by rw [← queued_eq, List.tail_cons], ?_, ?_⟩
  · rw [recvHandshakeResponse, answered_eq, List.nil_append, answer_eq]
  · rw [frames_eq, last.eq_empty alive_last nothing]

end

/-- A ping, and all is sent. -/
def pingLabels : List Label :=
  [.read (browserFrame opcodePing (text "abcd")) false, .write 1000]

/-- What is sent, cut in the middle of the response and behind the first byte of the pong. -/
def pingIncoming : List (List UInt8) :=
  let bytes := sentBytes greetingEnvironment (wsconnCreate greetingEnvironment)
    (readLabels greetingReads ++ pingLabels)
  [bytes.take 20, (bytes.drop 20).take (bytes.length - 25), bytes.drop (bytes.length - 5)]

/-- The client is returned the pong. -/
theorem client_reads_session_ping :
    ∃ final, Execution.run (connStep greetingEnvironment) (wsconnCreate greetingEnvironment)
        (readLabels greetingReads ++ pingLabels) = some final ∧
      final.queued.tail = [.frame opcodePong (text "abcd")] ∧
      ∃ (frames : List (Fin 16 × List UInt8)) (client : Client),
        (final.queued.tail = frames.map fun frame => .frame frame.1 frame.2) ∧
        recvHandshakeResponse 6 { buffer := [], incoming := pingIncoming } =
          .returned ((RequestText.greeting "Upgrade").answer RequestText.greetingPlatform .accepted)
            client ∧
        recvFrames 0 frames.length client =
          .returned (frames.map fun frame => { fin := 1, opcode := frame.1, data := frame.2 })
            { buffer := [], incoming := [] } := by
  obtain ⟨final, execution, queued_eq, flushed⟩ :
      ∃ final, Execution.run (connStep greetingEnvironment) (wsconnCreate greetingEnvironment)
          (readLabels greetingReads ++ pingLabels) = some final ∧
        final.queued =
          [.response (wireLines
            ((RequestText.greeting "Upgrade").answer RequestText.greetingPlatform .accepted)),
            .frame opcodePong (text "abcd")] ∧
        final.pending = [] := by
    decide +kernel
  have verdict : (RequestText.greeting "Upgrade").verdict greetingEnvironment.platform
      greetingEnvironment.conf = .accepted := by decide +kernel
  have short : ∀ opcode payload, .frame opcode payload ∈ final.queued → payload.length ≤ 125 := by
    rw [queued_eq]
    intro opcode payload member
    obtain ⟨-, rfl⟩ : opcode = opcodePong ∧ payload = text "abcd" := by simpa using member
    decide
  obtain ⟨frames, client, frames_eq, lines_eq, read_eq⟩ :=
    @client_reads_session greetingEnvironment (RequestText.greeting "Upgrade") (fun _ => rfl)
      (by decide +kernel) (by decide +kernel) greetingReads (by decide +kernel) (by decide +kernel)
      pingLabels final execution flushed short pingIncoming (by decide +kernel)
      (by decide +kernel) 0
  rw [verdict] at lines_eq
  exact ⟨final, execution, by rw [queued_eq]; rfl, frames, client, frames_eq, lines_eq, read_eq⟩

end Jabsocket
