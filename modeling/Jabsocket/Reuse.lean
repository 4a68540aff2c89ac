import Jabsocket.Fields

/-!
# Using a request again

`rq_clear` prepares a request for the next lines.  The bytes of its buffers remain, but what can be
seen of the request afterwards depends only on the lines it is given from then on, as long as the
parser stays inside its line buffer.
-/

namespace Jabsocket

/-- What can be seen of two requests is the same. -/
structure SameView (platform : Platform) (left right : Request) : Prop where
  done_eq : left.done = right.done
  error_eq : left.error = right.error
  getters_eq : ∀ field : Field, field.get left = field.get right
  protocols_eq : left.protocols.map (fun element => cstr element.buffer) =
    right.protocols.map fun element => cstr element.buffer
  count_eq : left.protocolCount = right.protocolCount
  upgrade_eq : left.flUpgradeFound = right.flUpgradeFound
  connection_eq : left.flConnectionFound = right.flConnectionFound
  analyze_eq : ∀ conf response,
    rqAnalyze platform left conf response = rqAnalyze platform right conf response

/-- After `rq_clear` the lines are read as by a new request, whatever was read before. -/
structure StartsAfresh (platform : Platform) (memory other : Nat → UInt8)
    (earlier lines : List (List UInt8)) : Prop where
  inside : (lines.foldl (rqAddLine platform)
    (rqClear (earlier.foldl (rqAddLine platform) (rqCreate memory)))).overrun = false
  new_inside : (lines.foldl (rqAddLine platform) (rqCreate other)).overrun = false
  same : SameView platform
    (lines.foldl (rqAddLine platform)
      (rqClear (earlier.foldl (rqAddLine platform) (rqCreate memory))))
    (lines.foldl (rqAddLine platform) (rqCreate other))

section

variable {platform : Platform} {last : UInt8} {reading : Reading} {request : Request}

/-! ## Clearing -/

theorem strClear_holds {str : Str} {capacity : Nat} (sized : str.Sized capacity)
    (positive : 0 < capacity) : (strClear str).Holds capacity [] := by
  obtain ⟨rfl, length_eq⟩ := sized
  exact Str.Sized.strInit positive length_eq

theorem follows_rqClear (tracks : Tracks last reading request)
    (stored : Stored platform reading request) :
    Follows platform last Reading.fresh (rqClear request) := by
  have cleared : ∀ field : Field, (field.str (rqClear request)).Holds field.capacity [] := by
    intro field
    have sized := (stored.retains field).sized
    cases field <;> exact strClear_holds sized (by decide)
  have method_holds := strClear_holds stored.records.method_holds.sized (by decide)
  have resource_holds := strClear_holds stored.records.resource_holds.sized (by decide)
  refine ⟨⟨rfl, rfl, rfl, tracks.inside, tracks.length_eq, tracks.last_eq, nofun, fun _ => rfl⟩,
    ⟨?_, ?_, ?_, ?_⟩, List.not_mem_nil⟩
  · exact
      { method_holds := method_holds
        resource_holds := resource_holds
        host_holds := cleared .host
        upgrade_sized := (cleared .upgrade).sized
        upgrade_found := rfl
        connection_sized := (cleared .connection).sized
        connection_found := rfl
        key_holds := cleared .key
        protocol_sized := (cleared .protocol).sized
        protocols_eq := rfl
        version_holds := cleared .version
        origin_holds := cleared .origin }
  · exact strClear_holds stored.protocol_holds.sized (by decide)
  · exact fun field => Field.retains_empty (cleared field)
  · exact ⟨by simp [rqClear], rfl⟩

/-! ## Views -/

theorem rqAnalyze_congr {left right : Request}
    (method_eq : cstr left.methodStr.buffer = cstr right.methodStr.buffer)
    (resource_eq : cstr left.resourceStr.buffer = cstr right.resourceStr.buffer)
    (getters_eq : ∀ field : Field, field.get left = field.get right)
    (protocols_eq : left.protocols.map (fun element => cstr element.buffer) =
      right.protocols.map fun element => cstr element.buffer)
    (upgrade_eq : left.flUpgradeFound = right.flUpgradeFound)
    (connection_eq : left.flConnectionFound = right.flConnectionFound) (conf : JsConf)
    (response : Str) :
    rqAnalyze platform left conf response = rqAnalyze platform right conf response := by
  have contains : ∀ name, rqProtocolsContains left name = rqProtocolsContains right name := by
    intro name
    have same := congrArg (List.any · (· == name)) protocols_eq
    simpa [rqProtocolsContains, List.any_map, Function.comp_def] using same
  have origin : cstr left.originStr.buffer = cstr right.originStr.buffer := getters_eq .origin
  have key : cstr left.wsKeyStr.buffer = cstr right.wsKeyStr.buffer := getters_eq .key
  have host : cstr left.hostStr.buffer = cstr right.hostStr.buffer := getters_eq .host
  have version : cstr left.wsVersionStr.buffer = cstr right.wsVersionStr.buffer :=
    getters_eq .version
  have connection : cstr left.connectionStr.buffer = cstr right.connectionStr.buffer :=
    getters_eq .connection
  simp only [rqAnalyze, strIsEqualNocase, method_eq, resource_eq, contains, origin, key, host,
    version, connection, upgrade_eq, connection_eq]

/-- What has been read decides what can be seen. -/
theorem Follows.sameView {other : UInt8} {left right : Request}
    (left_follows : Follows platform last reading left)
    (right_follows : Follows platform other reading right) : SameView platform left right := by
  have getters_eq : ∀ field : Field, field.get left = field.get right := by
    intro field
    rw [Field.get, Field.get, (left_follows.retains field).string_eq,
      (right_follows.retains field).string_eq]
  have protocols_eq := left_follows.records.protocols_eq.trans
    right_follows.records.protocols_eq.symm
  have upgrade_eq := left_follows.records.upgrade_found.trans
    right_follows.records.upgrade_found.symm
  have connection_eq := left_follows.records.connection_found.trans
    right_follows.records.connection_found.symm
  refine ⟨left_follows.done_eq.trans right_follows.done_eq.symm,
    left_follows.error_eq.trans right_follows.error_eq.symm, getters_eq, protocols_eq, ?_,
    upgrade_eq, connection_eq, ?_⟩
  · have lengths := congrArg List.length protocols_eq
    rw [left_follows.listed.count_eq, right_follows.listed.count_eq]
    simpa using lengths
  · refine rqAnalyze_congr ?_ ?_ getters_eq protocols_eq upgrade_eq connection_eq
    · exact left_follows.records.method_holds.string_eq.trans
        right_follows.records.method_holds.string_eq.symm
    · exact left_follows.records.resource_holds.string_eq.trans
        right_follows.records.resource_holds.string_eq.symm

end

/-- A cleared request reads lines as a new one does exactly when both stay inside their line
buffers. -/
theorem startsAfresh_iff (platform : Platform) (memory other : Nat → UInt8)
    {earlier lines : List (List UInt8)} (plain : ∀ line ∈ earlier ++ lines, 0 ∉ line)
    (literal : ∀ line ∈ earlier ++ lines, 37 ∉ line) :
    StartsAfresh platform memory other earlier lines ↔
      (memory 4095 = 0 ∨
        (∀ count < earlier.length, (readLines (earlier.take count)).current.length < 4095) ∧
          ∀ count < lines.length, (readLines (lines.take count)).current.length < 4095) ∧
        (other 4095 = 0 ∨
          ∀ count < lines.length, (readLines (lines.take count)).current.length < 4095) := by
  rw [or_and_left, ← contained_fresh_iff, ← contained_fresh_iff, ← contained_fresh_iff]
  have plain_earlier : ∀ line ∈ earlier, 0 ∉ line :=
    fun line member => plain line (by simp [member])
  have plain_lines : ∀ line ∈ lines, 0 ∉ line := fun line member => plain line (by simp [member])
  have literal_earlier : ∀ line ∈ earlier, 37 ∉ line :=
    fun line member => literal line (by simp [member])
  have literal_lines : ∀ line ∈ lines, 37 ∉ line :=
    fun line member => literal line (by simp [member])
  have cleared : Reading.fresh.Contained (memory 4095) earlier →
      Follows platform (memory 4095) Reading.fresh
        (rqClear (earlier.foldl (rqAddLine platform) (rqCreate memory))) := by
    intro contained
    have follows := (follows_rqCreate platform memory).foldl contained plain_earlier
      literal_earlier
    exact follows_rqClear follows.toTracks follows.toStored
  have created := follows_rqCreate platform other
  constructor
  · intro afresh
    have contained_earlier : Reading.fresh.Contained (memory 4095) earlier := by
      refine ((tracks_rqCreate memory).overrun_iff platform plain_earlier).mp ?_
      by_contra overrun
      have kept : (rqClear (earlier.foldl (rqAddLine platform) (rqCreate memory))).overrun =
          true := eq_true_of_ne_false overrun
      have still := foldl_rqAddLine_overrun platform kept lines
      exact Bool.false_ne_true (afresh.inside.symm.trans still)
    exact ⟨⟨contained_earlier,
      ((cleared contained_earlier).overrun_iff platform plain_lines).mp afresh.inside⟩,
      (created.overrun_iff platform plain_lines).mp afresh.new_inside⟩
  · rintro ⟨⟨contained_earlier, contained_lines⟩, contained_other⟩
    have again := (cleared contained_earlier).foldl contained_lines plain_lines literal_lines
    have anew := created.foldl contained_other plain_lines literal_lines
    exact ⟨again.inside, anew.inside, again.sameView anew⟩

/-- An unfinished request. -/
def halfRequest : List (List UInt8) :=
  [text "GET / HTTP/1.1", text "Connection: Upgrade", text "Host: a"]

/-- Nothing of an unfinished request is seen in the next one. -/
theorem startsAfresh_unfinished :
    (∀ line ∈ halfRequest ++ (RequestText.greeting "Upgrade").lines, 0 ∉ line ∧ 37 ∉ line) ∧
      StartsAfresh RequestText.greetingPlatform (fun _ => 255) (fun _ => 254) halfRequest
        (RequestText.greeting "Upgrade").lines := by
  have clean : ∀ line ∈ halfRequest ++ (RequestText.greeting "Upgrade").lines,
      0 ∉ line ∧ 37 ∉ line := by
    decide +kernel
  refine ⟨clean, (startsAfresh_iff _ _ _ (fun line member => (clean line member).1)
    fun line member => (clean line member).2).mpr ⟨Or.inr ⟨?_, ?_⟩, Or.inr ?_⟩⟩
  · decide +kernel
  · decide +kernel
  · decide +kernel

/-- The cleared request leaves its line buffer where a new request with a zero in the last byte
does not, although every logical header is short. -/
theorem not_startsAfresh_overfolded :
    RequestText.overfolded.Foldable ∧
      (∀ line ∈ halfRequest ++ RequestText.overfolded.lines, 0 ∉ line ∧ 37 ∉ line) ∧
      ¬ StartsAfresh RequestText.greetingPlatform (fun _ => 255) (fun _ => 0) halfRequest
        RequestText.overfolded.lines := by
  have clean : ∀ line ∈ halfRequest ++ RequestText.overfolded.lines, 0 ∉ line ∧ 37 ∉ line := by
    decide +kernel
  have plain : ∀ line ∈ halfRequest, 0 ∉ line :=
    fun line member => (clean line (List.mem_append_left _ member)).1
  have literal : ∀ line ∈ halfRequest, 37 ∉ line :=
    fun line member => (clean line (List.mem_append_left _ member)).2
  refine ⟨by decide +kernel, clean, fun afresh => ?_⟩
  have contained : Reading.fresh.Contained 255 halfRequest := by
    decide +kernel
  have follows := (follows_rqCreate RequestText.greetingPlatform fun _ => 255).foldl contained plain
    literal
  have cleared := follows_rqClear follows.toTracks follows.toStored
  have contained_lines := (cleared.overrun_iff RequestText.greetingPlatform fun line member =>
    (clean line (List.mem_append_right _ member)).1).mp afresh.inside
  exact absurd (contained_lines 4 (by decide)) (by decide +kernel)

end Jabsocket
