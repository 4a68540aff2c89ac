import Jabsocket.Handshake

/-!
# Checks on values which were cut

The origin and the protocols are compared after they were cut to their buffers.  A value which is
longer than its buffer can therefore pass a check which the value as sent does not pass.
-/

namespace Jabsocket

/-! ## Pieces of a cut value -/

/-- All pieces of a cut value but the last are pieces of the value. -/
theorem dropLast_splitOnP_isPrefix (isDelimiter : UInt8 → Bool) (kept cut : List UInt8) :
    (kept.splitOnP isDelimiter).dropLast <+: (kept ++ cut).splitOnP isDelimiter := by
  induction kept with
  | nil => simp
  | cons byte kept ih =>
      obtain ⟨head, pieces, split_kept⟩ :=
        List.exists_cons_of_ne_nil (List.splitOnP_ne_nil isDelimiter kept)
      rw [List.cons_append, List.splitOnP_cons_eq_if_modifyHead,
        List.splitOnP_cons_eq_if_modifyHead]
      cases delimiter : isDelimiter byte with
      | true =>
          simp only [if_true]
          rw [List.dropLast_cons_of_ne_nil (List.splitOnP_ne_nil isDelimiter kept)]
          exact List.cons_prefix_cons.mpr ⟨rfl, ih⟩
      | false =>
          simp only [Bool.false_eq_true, if_false]
          rw [split_kept] at ih ⊢
          cases pieces with
          | nil => simp
          | cons next pieces =>
              rw [List.dropLast_cons_of_ne_nil (by simp)] at ih
              obtain ⟨others, split_all⟩ := ih
              rw [← split_all, List.modifyHead_cons, List.cons_append, List.modifyHead_cons,
                List.dropLast_cons_of_ne_nil (by simp)]
              exact List.cons_prefix_cons.mpr ⟨rfl, List.prefix_append _ _⟩

/-- The piece of a value which lies across the end of the buffer, as far as it is stored. -/
def cutPiece (value : List UInt8) : List UInt8 :=
  ((value.take 63).splitOnP isComma).getLastD []

/-- A value is too long for its buffer, and cutting it leaves a token `xmpp` at the end. -/
def CutToXmpp (value : List UInt8) : Prop :=
  63 < value.length ∧ trim (cutPiece value) = text "xmpp"

theorem trim_eq_of_take {token : List UInt8} (found : (trim token).take 15 = text "xmpp") :
    trim token = text "xmpp" := by
  by_cases short : (trim token).length ≤ 15
  · rwa [List.take_of_length_le short] at found
  · have lengths := congrArg List.length found
    rw [List.length_take, Nat.min_eq_left (by omega)] at lengths
    exact absurd lengths (by decide)

theorem exists_piece_or_cutToXmpp {value : List UInt8}
    (stored : text "xmpp" ∈ protocolNames value) :
    (∃ piece ∈ value.splitOnP isComma, trim piece = text "xmpp") ∨ CutToXmpp value := by
  obtain ⟨token, member, cut_eq⟩ := List.mem_map.mp stored
  have token_eq := trim_eq_of_take cut_eq
  have piece := (RequestText.mem_tokens_iff.mp member).1
  by_cases fits : value.length ≤ 63
  · rw [List.take_of_length_le fits] at piece
    exact Or.inl ⟨token, piece, token_eq⟩
  · have nonempty := List.splitOnP_ne_nil isComma (value.take 63)
    rw [← List.dropLast_append_getLast nonempty, List.mem_append, List.mem_singleton] at piece
    obtain complete | rfl := piece
    · have whole := (dropLast_splitOnP_isPrefix isComma (value.take 63) (value.drop 63)).subset
        complete
      rw [List.take_append_drop] at whole
      exact Or.inl ⟨token, whole, token_eq⟩
    · refine Or.inr ⟨by omega, ?_⟩
      rwa [cutPiece, List.getLastD_eq_getLast?, List.getLast?_eq_some_getLast nonempty,
        Option.getD_some]

namespace RequestText

/-- When a configuration with origins accepts the request, the origin as sent matches and `xmpp` was
offered. -/
def CheckedAsSent (platform : Platform) (conf : JsConf) (memory : Nat → UInt8) (response : Str)
    (sent : RequestText) : Prop :=
  conf.originList ≠ [] → (sent.submit platform memory).error = false →
    (rqAnalyze platform (sent.submit platform memory) conf response).2 = 1 →
      (∃ pattern ∈ conf.originList,
        platform.fnmatch pattern ((lastOf sent.values.origin).map tolower) = true) ∧
      sent.OffersXmpp

/-- The origin fits into its buffer, or the configuration also allows what is cut. -/
def OriginUncut (platform : Platform) (conf : JsConf) (sent : RequestText) : Prop :=
  (lastOf sent.values.origin).length ≤ 255 ∨
    configCheckOrigin platform conf ((lastOf sent.values.origin).map tolower) = true

/-- `xmpp` is offered, or cutting a value does not make it up. -/
def ProtocolUncut (sent : RequestText) : Prop :=
  sent.OffersXmpp ∨ ∀ value ∈ sent.values.protocol, ¬ CutToXmpp value

/-- A configuration with one origin and no other restriction. -/
def onlyOrigin (pattern : List UInt8) : JsConf :=
  { configCreate with originList := [pattern] }

/-- The security checks are made on what was sent exactly when the request does not pass the checks
on the stored values, or neither its origin nor a list of protocols passes them because it was
cut. -/
theorem checkedAsSent_iff {sent : RequestText} (sendable : sent.Sendable) (platform : Platform)
    (conf : JsConf) (memory : Nat → UInt8) (response : Str) :
    sent.CheckedAsSent platform conf memory response ↔
      (conf.originList ≠ [] → sent.Readable → sent.StoredAccept platform conf →
        sent.OriginUncut platform conf ∧ sent.ProtocolUncut) := by
  have listed (restricted : conf.originList ≠ []) (origin : List UInt8) :
      configCheckOrigin platform conf origin = true ↔
        ∃ pattern ∈ conf.originList, platform.fnmatch pattern origin = true := by
    simp [configCheckOrigin, restricted]
  constructor
  · intro checked restricted readable stored
    obtain ⟨matched, offers⟩ := checked restricted (readable.records platform memory).2.2
      ((readable.accepts_iff platform memory conf response).mpr stored)
    exact ⟨Or.inr ((listed restricted _).mpr matched), Or.inl offers⟩
  · intro condition restricted clean accepted
    have readable := sendable.readable clean
    have stored := (readable.accepts_iff platform memory conf response).mp accepted
    obtain ⟨origin, offers⟩ := condition restricted readable stored
    refine ⟨(listed restricted _).mp ?_, ?_⟩
    · obtain short | allowed := origin
      · have kept := stored.origin
        rwa [List.take_of_length_le (by simpa using short)] at kept
      · exact allowed
    · obtain offers | uncut := offers
      · exact offers
      · obtain ⟨value, member, stored_name⟩ := stored.protocol
        obtain ⟨piece, found, piece_eq⟩ | cut := exists_piece_or_cutToXmpp stored_name
        · exact ⟨value, member, piece, found, by simp [piece_eq]⟩
        · exact absurd cut (uncut value member)

/-- `fnmatch` on patterns without brackets and backslashes: `*` matches any string and `?` any
single character. -/
def globMatch : List UInt8 → List UInt8 → Bool
  | [], string => string.isEmpty
  | symbol :: pattern, string =>
      if symbol = 42 then string.tails.any (globMatch pattern)
      else
        match string with
        | [] => false
        | byte :: string => (symbol == 63 || symbol == byte) && globMatch pattern string

/-- `greeting` with an origin. -/
def visit (origin : List UInt8) : RequestText :=
  { greeting "Upgrade" with
    headerLines := (greeting "Upgrade").headerLines ++ [text "Origin: " ++ origin] }

/-- The platform of `greeting` with wildcards in its patterns. -/
def wildcardPlatform : Platform :=
  { greetingPlatform with fnmatch := globMatch }

/-- An origin which fits into its buffer is checked as it was sent. -/
theorem checkedAsSent_visit :
    (visit (text "http://a.com")).Sendable ∧
      (visit (text "http://a.com")).CheckedAsSent wildcardPlatform
        (onlyOrigin (text "http://*.com")) (fun _ => 0) (strLocal 1024) := by
  have sendable : (visit (text "http://a.com")).Sendable := by decide +kernel
  refine ⟨sendable, (checkedAsSent_iff sendable _ _ _ _).mpr fun _ _ _ => ?_⟩
  exact ⟨Or.inl (by decide +kernel), Or.inl (by decide +kernel)⟩

/-- An origin of another domain, whose first 255 bytes are an origin below `example.com`. -/
def forgedOrigin : List UInt8 :=
  text "http://" ++ List.replicate 236 97 ++ text ".example.com.evil.com"

theorem storedAccept_forgedOrigin :
    (visit forgedOrigin).StoredAccept wildcardPlatform
      (onlyOrigin (text "http://*.example.com")) where
  method := by decide +kernel
  origin := by decide +kernel
  protocol := by decide +kernel
  key := by decide +kernel
  host := by decide +kernel
  upgrade := by decide +kernel
  connection := by decide +kernel
  resource := by decide +kernel
  version := by decide +kernel

/-- The forged origin is accepted by a configuration which only allows `example.com`. -/
theorem not_checkedAsSent_forgedOrigin :
    ¬ (visit forgedOrigin).CheckedAsSent wildcardPlatform
      (onlyOrigin (text "http://*.example.com")) (fun _ => 0) (strLocal 1024) := by
  intro checked
  have readable : (visit forgedOrigin).Readable := by decide +kernel
  have accepted := (readable.accepts_iff wildcardPlatform (fun _ => 0)
    (onlyOrigin (text "http://*.example.com")) (strLocal 1024)).mpr storedAccept_forgedOrigin
  obtain ⟨⟨pattern, member, matched⟩, -⟩ := checked (by simp [onlyOrigin])
    (readable.records wildcardPlatform _).2.2 accepted
  obtain rfl : pattern = text "http://*.example.com" := by simpa [onlyOrigin] using member
  exact absurd matched (by decide +kernel)

end RequestText

end Jabsocket
