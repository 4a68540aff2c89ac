import Jabsocket.Fields

/-!
# Comma-separated headers

The pieces of a value are read from a copy of 63 bytes, and each into a buffer of 16.  The pieces of
a string which is cut are those of the whole string up to the last one, so that reading is exact
when cutting changes no piece.
-/

namespace Jabsocket

/-- The nonempty comma-separated pieces of a value. -/
def pieces (value : List UInt8) : List (List UInt8) :=
  (value.splitOnP isComma).filter (· ≠ [])

/-- The names which a value lists. -/
def pieceNames (value : List UInt8) : List (List UInt8) :=
  (pieces value).map trim

/-- A piece of the value is `Upgrade`. -/
def NamesUpgrade (value : List UInt8) : Prop :=
  ∃ piece ∈ value.splitOnP isComma, equalNocase (trim piece) (text "Upgrade") = true

instance (value : List UInt8) : Decidable (NamesUpgrade value) :=
  inferInstanceAs (Decidable (∃ piece ∈ value.splitOnP isComma, _ = true))

/-- The part of a value which the parser keeps. -/
def keptPart (value : List UInt8) : List UInt8 :=
  (trimLeft value).take 63

/-! ## Cutting a value -/

/-- The pieces of a longer string: those of its front, the last one joined with the first one of
the rest, and those of the rest. -/
theorem splitOnP_append (front back : List UInt8) :
    ∃ earlier final more later, front.splitOnP isComma = earlier ++ [final] ∧
      back.splitOnP isComma = more :: later ∧
      (front ++ back).splitOnP isComma = earlier ++ (final ++ more) :: later := by
  induction front with
  | nil =>
      obtain ⟨more, later, split⟩ :=
        List.exists_cons_of_ne_nil (List.splitOnP_ne_nil isComma back)
      exact ⟨[], [], more, later, rfl, split, split⟩
  | cons byte front ih =>
      obtain ⟨earlier, final, more, later, front_eq, back_eq, whole_eq⟩ := ih
      rw [List.cons_append, List.splitOnP_cons_eq_if_modifyHead,
        List.splitOnP_cons_eq_if_modifyHead, front_eq, whole_eq]
      cases comma : isComma byte with
      | true => exact ⟨[] :: earlier, final, more, later, by simp, back_eq, by simp⟩
      | false =>
          cases earlier with
          | nil => exact ⟨[], byte :: final, more, later, by simp, back_eq, by simp⟩
          | cons first earlier =>
              exact ⟨(byte :: first) :: earlier, final, more, later, by simp, back_eq, by simp⟩

theorem length_trim_append (front back : List UInt8) :
    (trim front).length ≤ (trim (front ++ back)).length := by
  induction back using List.reverseRecOn with
  | nil => simp
  | append_singleton back byte ih =>
      rw [← List.append_assoc]
      cases space : isspace byte with
      | true => rwa [trim_concat_of_space _ space]
      | false =>
          calc (trim front).length
            _ ≤ (trim (front ++ back)).length := ih
            _ ≤ (trimLeft (front ++ back)).length := (List.rdropWhile_prefix isspace _).length_le
            _ ≤ (trim (front ++ back ++ [byte])).length := by
              rw [trim_concat_of_ink _ space, List.length_append]
              exact Nat.le_add_right _ _

theorem exists_longer_name {front name : List UInt8} (member : name ∈ pieceNames front)
    (back : List UInt8) : ∃ longer ∈ pieceNames (front ++ back), name.length ≤ longer.length := by
  obtain ⟨earlier, final, more, later, front_eq, -, whole_eq⟩ := splitOnP_append front back
  obtain ⟨piece, found, rfl⟩ := List.mem_map.mp member
  obtain ⟨inside, nonempty⟩ := List.mem_filter.mp found
  rw [front_eq] at inside
  have kept : ∀ other ∈ (front ++ back).splitOnP isComma, other ≠ [] →
      trim other ∈ pieceNames (front ++ back) :=
    fun other there here =>
      List.mem_map.mpr ⟨other, List.mem_filter.mpr ⟨there, by simpa using here⟩, rfl⟩
  obtain before | last := List.mem_append.mp inside
  · exact ⟨trim piece, kept piece (by simp [whole_eq, before]) (by simpa using nonempty),
      Nat.le_refl _⟩
  · obtain rfl : piece = final := by simpa using last
    have extended : piece ++ more ≠ [] := by
      have ink : piece ≠ [] := by simpa using nonempty
      simp [ink]
    exact ⟨trim (piece ++ more), kept _ (by simp [whole_eq]) extended,
      length_trim_append piece more⟩

theorem length_pieceNames_append (front back : List UInt8) :
    (pieceNames front).length ≤ (pieceNames (front ++ back)).length := by
  obtain ⟨earlier, final, more, later, front_eq, -, whole_eq⟩ := splitOnP_append front back
  simp only [pieceNames, pieces, front_eq, whole_eq, List.length_map, List.filter_append,
    List.length_append]
  by_cases empty : final = []
  · simp [empty]
  · simp [empty]

/-- Leading whitespace makes a difference only when it is a piece of its own. -/
theorem pieceNames_trimLeft (value : List UInt8) :
    pieceNames value = pieceNames (trimLeft value) ∨
      pieceNames value = [] :: pieceNames (trimLeft value) := by
  have spaces : ∀ byte ∈ value.takeWhile isspace, isComma byte = false := by
    intro byte member
    have space := List.mem_takeWhile_imp member
    by_contra comma
    obtain rfl : byte = 44 := by simpa [isComma] using comma
    exact absurd space (by decide)
  have split_value := List.takeWhile_append_dropWhile (p := isspace) (l := value)
  obtain ⟨earlier, final, more, later, front_eq, back_eq, whole_eq⟩ :=
    splitOnP_append (value.takeWhile isspace) (value.dropWhile isspace)
  rw [List.splitOnP_eq_singleton spaces] at front_eq
  obtain ⟨rfl, rfl⟩ : earlier = [] ∧ value.takeWhile isspace = final := by
    cases earlier with
    | nil => exact ⟨rfl, by simpa using front_eq⟩
    | cons first earlier => simp at front_eq
  rw [split_value, List.nil_append] at whole_eq
  have trimmed : trim (value.takeWhile isspace ++ more) = trim more := by
    rw [trim, trim, trimLeft, trimLeft,
      List.dropWhile_append_of_pos fun byte => List.mem_takeWhile_imp]
  simp only [pieceNames, pieces, trimLeft, whole_eq, back_eq]
  by_cases first : more = []
  · rw [first, List.append_nil] at trimmed ⊢
    by_cases none : value.takeWhile isspace = []
    · exact Or.inl (by simp [none])
    · exact Or.inr (by simp [none, trimmed, show trim [] = [] from rfl])
  · exact Or.inl (by simp [first, trimmed])

/-! ## Reading names -/

theorem protocolNames_trimLeft (value : List UInt8) :
    protocolNames (trimLeft value) = (pieceNames (keptPart value)).map (·.take 15) := by
  rw [protocolNames, tokens_eq_filter_splitOnP, pieceNames, List.map_map]
  rfl

/-- A value whose names are read as they are. -/
def ReadExactly (value : List UInt8) : Prop :=
  pieceNames (keptPart value) = pieceNames value ∧ ∀ name ∈ pieceNames value, name.length ≤ 15

instance (value : List UInt8) : Decidable (ReadExactly value) :=
  inferInstanceAs (Decidable (_ ∧ _))

theorem keptPart_append (value : List UInt8) :
    keptPart value ++ (trimLeft value).drop 63 = trimLeft value :=
  List.take_append_drop 63 _

theorem length_protocolNames_le (value : List UInt8) :
    (protocolNames (trimLeft value)).length ≤ (pieceNames value).length := by
  have cut := length_pieceNames_append (keptPart value) ((trimLeft value).drop 63)
  rw [keptPart_append] at cut
  rw [protocolNames_trimLeft, List.length_map]
  obtain same | shifted := pieceNames_trimLeft value
  · rwa [same]
  · rw [shifted, List.length_cons]
    omega

theorem protocolNames_eq_iff (value : List UInt8) :
    protocolNames (trimLeft value) = pieceNames value ↔ ReadExactly value := by
  rw [protocolNames_trimLeft]
  constructor
  · intro names_eq
    have short : ∀ name ∈ pieceNames value, name.length ≤ 15 := by
      intro name member
      rw [← names_eq] at member
      obtain ⟨other, -, rfl⟩ := List.mem_map.mp member
      exact List.length_take_le _ _
    have cut := length_pieceNames_append (keptPart value) ((trimLeft value).drop 63)
    rw [keptPart_append] at cut
    have same : pieceNames value = pieceNames (trimLeft value) := by
      obtain same | shifted := pieceNames_trimLeft value
      · exact same
      · have lengths := congrArg List.length names_eq
        rw [shifted, List.length_map, List.length_cons] at lengths
        omega
    have uncut : ∀ name ∈ pieceNames (keptPart value), name.take 15 = name := by
      intro name member
      obtain ⟨longer, found, le⟩ := exists_longer_name member ((trimLeft value).drop 63)
      rw [keptPart_append, ← same] at found
      exact List.take_of_length_le (Nat.le_trans le (short longer found))
    refine ⟨?_, short⟩
    rw [← names_eq, List.map_congr_left uncut, List.map_id']
  · rintro ⟨names_eq, short⟩
    rw [names_eq]
    calc (pieceNames value).map (·.take 15)
      _ = (pieceNames value).map id :=
        List.map_congr_left fun name member => List.take_of_length_le (short name member)
      _ = pieceNames value := List.map_id _

theorem length_flatMap_le {α β : Type} {values : List α} {left right : α → List β}
    (shorter : ∀ value ∈ values, (left value).length ≤ (right value).length) :
    (values.flatMap left).length ≤ (values.flatMap right).length := by
  induction values with
  | nil => simp
  | cons value values ih =>
      have later := ih fun other member => shorter other (by simp [member])
      have first := shorter value (by simp)
      rw [List.flatMap_cons, List.flatMap_cons, List.length_append, List.length_append]
      omega

/-- Lists which are joined to the same list are the same, if none of them is longer. -/
theorem flatMap_eq_iff {α β : Type} {values : List α} {left right : α → List β}
    (shorter : ∀ value ∈ values, (left value).length ≤ (right value).length) :
    values.flatMap left = values.flatMap right ↔ ∀ value ∈ values, left value = right value := by
  refine ⟨fun joined => ?_, List.flatMap_congr⟩
  induction values with
  | nil => simp
  | cons value values ih =>
      have later_shorter : ∀ other ∈ values, (left other).length ≤ (right other).length :=
        fun other member => shorter other (by simp [member])
      have rest := length_flatMap_le later_shorter
      have first := shorter value (by simp)
      rw [List.flatMap_cons, List.flatMap_cons] at joined
      have lengths := congrArg List.length joined
      rw [List.length_append, List.length_append] at lengths
      obtain ⟨value_eq, values_eq⟩ := List.append_inj joined (by omega)
      intro other member
      obtain rfl | inside := List.mem_cons.mp member
      · exact value_eq
      · exact ih later_shorter values_eq other inside

/-! ## The search for `Upgrade` -/

theorem equalNocase_take {name other : List UInt8} {count : Nat} (short : other.length < count) :
    equalNocase (name.take count) other = equalNocase name other := by
  by_cases fits : name.length ≤ count
  · rw [List.take_of_length_le fits]
  · have cut : (name.take count).length = count := by
      rw [List.length_take]
      omega
    have unequal : ∀ string : List UInt8, other.length < string.length →
        equalNocase string other = false := by
      intro string longer
      rw [equalNocase, beq_eq_false_iff_ne]
      intro same
      have lengths := congrArg List.length same
      rw [List.length_map, List.length_map] at lengths
      omega
    rw [unequal _ (by omega), unequal _ (by omega)]

theorem hasUpgradeToken_trimLeft (value : List UInt8) :
    hasUpgradeToken (trimLeft value) = true ↔ NamesUpgrade (keptPart value) := by
  rw [hasUpgradeToken, List.any_eq_true, NamesUpgrade]
  constructor
  · rintro ⟨token, member, named⟩
    rw [equalNocase_take (by decide)] at named
    exact ⟨token, (RequestText.mem_tokens_iff.mp member).1, named⟩
  · rintro ⟨piece, member, named⟩
    have nonempty : piece ≠ [] := by
      rintro rfl
      exact absurd named (by decide)
    refine ⟨piece, RequestText.mem_tokens_iff.mpr ⟨member, nonempty⟩, ?_⟩
    rwa [equalNocase_take (by decide)]

/-- The request when `_process` looks for `Upgrade` in the value of a Connection header. -/
def withConnection (platform : Platform) (request : Request) (value : List UInt8) : Request :=
  { request with connectionStr := strTrimBeginning platform request.connectionStr value }

/-- The search has a defined result, which says whether a piece of the value is `Upgrade`. -/
def FindsUpgrade (request : Request) (value : List UInt8) : Prop :=
  ∃ result : Int,
    (∀ platform, findConnectionUpgrade platform (withConnection platform request value) = result) ∧
      (result ≠ 0 ↔ NamesUpgrade value)

theorem findsUpgrade_iff {request : Request} {value : List UInt8}
    (sized : request.connectionStr.Sized 64) (plain : 0 ∉ value) (literal : 37 ∉ value) :
    FindsUpgrade request value ↔ NamesUpgrade value ∧ NamesUpgrade (keptPart value) := by
  have kept := (List.dropWhile_sublist isspace (l := value)).subset
  have search : ∀ platform, findConnectionUpgrade platform
      (withConnection platform request value) =
        if NamesUpgrade (keptPart value) then 1 else platform.missingReturn (keptPart value) := by
    intro platform
    have holds := sized.strTrimBeginning platform (by decide) plain literal
    rw [findConnectionUpgrade_eq platform (withConnection platform request value) holds
      (fun zero => plain (kept zero)) (fun percent => literal (kept percent))]
    simp only [hasUpgradeToken_trimLeft]
    rfl
  by_cases found : NamesUpgrade (keptPart value)
  · simp only [if_pos found] at search
    constructor
    · rintro ⟨result, constant, decides⟩
      have one : 1 = result :=
        (search RequestText.greetingPlatform).symm.trans (constant RequestText.greetingPlatform)
      exact ⟨decides.mp (by omega), found⟩
    · rintro ⟨named, -⟩
      exact ⟨1, search, iff_of_true (by decide) named⟩
  · refine iff_of_false ?_ fun both => found both.2
    rintro ⟨result, constant, -⟩
    simp only [search, if_neg found] at constant
    have zero : 0 = result :=
      constant { RequestText.greetingPlatform with missingReturn := fun _ => 0 }
    have one : 1 = result :=
      constant { RequestText.greetingPlatform with missingReturn := fun _ => 1 }
    omega

/-! ## The list of protocols -/

/-- The values of the Sec-WebSocket-Protocol headers. -/
def offered (headers : List Header) : List (List UInt8) :=
  (headers.filter fun header => equalNocase header.key (text "Sec-WebSocket-Protocol")).map
    Header.value

/-- The names of all the pieces which are offered, in order. -/
def offeredNames (headers : List Header) : List (List UInt8) :=
  (offered headers).flatMap pieceNames

/-- The request has listed what the headers offer. -/
structure ListsOffered (headers : List Header) (request : Request) : Prop where
  contains_iff : ∀ name : List UInt8, name.length ≤ 15 →
    (rqProtocolsContains request name = true ↔ name ∈ offeredNames headers)
  count_eq : request.protocolCount = ((offered headers).flatMap pieces).length
  enumerates : ∀ index : Nat,
    rqGetProtocol request index = (offeredNames headers).reverse[index]?

theorem valuesOf_eq_offered (headers : List Header) :
    (fieldValues headers).protocol = (offered headers).map trimLeft := by
  simp only [fieldValues, valuesOf, offered, List.map_map]
  rfl

/-- The list is the offered names exactly when every value is read exactly. -/
theorem listsOffered_iff {platform : Platform} {reading : Reading} {request : Request}
    (stored : Stored platform reading request) :
    ListsOffered reading.headers request ↔
      ∀ value ∈ offered reading.headers, ReadExactly value := by
  have names_eq := stored.records.protocols_eq
  rw [valuesOf_eq_offered, List.flatMap_map] at names_eq
  have exact_iff : (offered reading.headers).flatMap (fun value => protocolNames (trimLeft value)) =
      offeredNames reading.headers ↔ ∀ value ∈ offered reading.headers, ReadExactly value := by
    rw [offeredNames, flatMap_eq_iff fun value _ => length_protocolNames_le value]
    exact forall₂_congr fun value _ => protocolNames_eq_iff value
  have listed : ∀ index : Nat, rqGetProtocol request index =
      (request.protocols.map fun element => cstr element.buffer)[index]? := by
    intro index
    rw [rqGetProtocol, stored.listed.count_eq, List.getElem?_map, Int.toNat_natCast]
    split
    · rename_i outside
      rw [List.getElem?_eq_none (by omega), Option.map_none]
    · rfl
  rw [← exact_iff]
  constructor
  · intro lists
    rw [← List.reverse_inj, ← names_eq]
    exact List.ext_getElem? fun index => (listed index).symm.trans (lists.enumerates index)
  · intro same
    rw [same] at names_eq
    refine ⟨fun name _ => ?_, ?_, fun index => ?_⟩
    · have member := congrArg (name ∈ ·) names_eq
      simp only [List.mem_map, List.mem_reverse] at member
      rw [← member]
      simp [rqProtocolsContains]
    · have lengths := congrArg List.length names_eq
      rw [List.length_map, List.length_reverse] at lengths
      rw [stored.listed.count_eq, lengths]
      simp [offeredNames, pieceNames, List.length_flatMap]
    · rw [listed index, names_eq]

/-- Comma-separated headers are read by their pieces exactly when cutting leaves the pieces alone,
and the search for `Upgrade` only when it succeeds. -/
theorem readsPieces_iff (platform : Platform) (memory : Nat → UInt8) :
    (∀ (request : Request) (value : List UInt8), request.connectionStr.Sized 64 → 0 ∉ value →
        37 ∉ value →
          (FindsUpgrade request value ↔ NamesUpgrade value ∧ NamesUpgrade (keptPart value))) ∧
      ∀ headers : List Header, (∀ header ∈ headers, 0 ∉ header.value) →
        (∀ header ∈ headers, 37 ∉ header.value) →
          (ListsOffered headers (recordHeaders platform headers (rqCreate memory)) ↔
            ∀ value ∈ offered headers, ReadExactly value) := by
  refine ⟨fun request value sized plain literal => findsUpgrade_iff sized plain literal,
    fun headers plain literal => ?_⟩
  have created := (follows_rqCreate platform memory).toStored
  exact listsOffered_iff (created.recordHeaders plain literal)

/-- A Sec-WebSocket-Protocol header with the given value. -/
def offer (value : String) : Header :=
  { key := text "Sec-WebSocket-Protocol", value := text value }

/-- Two headers whose names are short. -/
theorem readsPieces_short :
    (rqCreate fun _ => 0).connectionStr.Sized 64 ∧
      FindsUpgrade (rqCreate fun _ => 0) (text " keep-alive, Upgrade") ∧
      (∀ header ∈ [offer " chat,, xmpp", offer "a ,b"], 0 ∉ header.value ∧ 37 ∉ header.value) ∧
      ListsOffered [offer " chat,, xmpp", offer "a ,b"]
        (recordHeaders RequestText.greetingPlatform [offer " chat,, xmpp", offer "a ,b"]
          (rqCreate fun _ => 0)) := by
  have sized : (rqCreate fun _ => 0).connectionStr.Sized 64 :=
    ((follows_rqCreate RequestText.greetingPlatform _).retains .connection).sized
  have clean : ∀ header ∈ [offer " chat,, xmpp", offer "a ,b"],
      0 ∉ header.value ∧ 37 ∉ header.value := by
    decide +kernel
  have reads := readsPieces_iff RequestText.greetingPlatform fun _ => 0
  refine ⟨sized, ?_, clean, ?_⟩
  · exact (reads.1 _ _ sized (by decide +kernel) (by decide +kernel)).mpr (by decide +kernel)
  · exact (reads.2 _ (fun header member => (clean header member).1)
      fun header member => (clean header member).2).mpr (by decide +kernel)

/-- The search has no defined result for `keep-alive`, and a long name is cut. -/
theorem not_readsPieces_long :
    ¬ FindsUpgrade (rqCreate fun _ => 0) (text "keep-alive") ∧
      ¬ ListsOffered [offer "soap-over-websockets"]
        (recordHeaders RequestText.greetingPlatform [offer "soap-over-websockets"]
          (rqCreate fun _ => 0)) := by
  have sized : (rqCreate fun _ => 0).connectionStr.Sized 64 :=
    ((follows_rqCreate RequestText.greetingPlatform _).retains .connection).sized
  refine ⟨fun finds => ?_, fun lists => ?_⟩
  · have named := (findsUpgrade_iff sized (by decide +kernel) (by decide +kernel)).mp finds
    exact absurd named.1 (by decide +kernel)
  · exact absurd (lists.enumerates 0) (by decide +kernel)

end Jabsocket
