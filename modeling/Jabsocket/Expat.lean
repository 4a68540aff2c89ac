import Jabsocket.CString
import Mathlib.Data.List.TakeWhile

/-!
# Expat

The XML parser is a library; the development takes it as a parameter.  A parser is determined by
the bytes it was fed: which handler calls they cause, and whether they are rejected.  This makes
the outcome independent of how the bytes were cut into calls of `XML_Parse`.
-/

namespace Jabsocket

/-- A call of an element handler, with `XML_GetCurrentByteIndex` and `XML_GetCurrentByteCount` at
the time of the call. -/
inductive Callback where
  | start (el : List UInt8) (attr : List (List UInt8 × List UInt8)) (index count : Nat)
  | stop (el : List UInt8) (index count : Nat)
  deriving DecidableEq, Repr

/-- Expat with namespace processing.  More input never takes back a handler call, a rejected
document stays rejected, and no handler is called after the rejection. -/
structure Expat where
  /-- All handler calls caused by the bytes fed to a new parser. -/
  report : List UInt8 → List Callback
  /-- No call of `XML_Parse` has returned `XML_STATUS_ERROR` for the bytes fed to a new parser. -/
  accepts : List UInt8 → Bool
  report_nil : report [] = []
  report_extends : ∀ fed more, report fed <+: report (fed ++ more)
  accepts_nil : accepts [] = true
  accepts_of_append : ∀ fed more, accepts (fed ++ more) = true → accepts fed = true
  report_of_rejected : ∀ fed more, accepts fed = false → report (fed ++ more) = report fed

/-- The handler calls made during one call of `XML_Parse`. -/
def xmlParse (expat : Expat) (fed bytes : List UInt8) : List Callback :=
  (expat.report (fed ++ bytes)).drop (expat.report fed).length

theorem report_append_xmlParse (expat : Expat) (fed bytes : List UInt8) :
    expat.report fed ++ xmlParse expat fed bytes = expat.report (fed ++ bytes) := by
  obtain ⟨later, split_report⟩ := expat.report_extends fed bytes
  rw [xmlParse, ← split_report, List.drop_left]

/-! ## A parser for one document -/

/-- Number of bytes up to which a document was fed. -/
def agreement : List UInt8 → List UInt8 → Nat
  | byte :: fed, expected :: document =>
      if byte = expected then agreement fed document + 1 else 0
  | _, _ => 0

theorem agreement_le_append (fed more document : List UInt8) :
    agreement fed document ≤ agreement (fed ++ more) document := by
  induction fed generalizing document with
  | nil => simp [agreement]
  | cons byte fed ih =>
      cases document with
      | nil => simp [agreement]
      | cons expected document =>
          simp only [List.cons_append, agreement]
          split
          · exact Nat.succ_le_succ (ih document)
          · exact Nat.le_refl 0

theorem agreement_le_length (fed document : List UInt8) :
    agreement fed document ≤ fed.length := by
  induction fed generalizing document with
  | nil => simp [agreement]
  | cons byte fed ih =>
      cases document with
      | nil => simp [agreement]
      | cons expected document =>
          simp only [agreement]
          split
          · exact Nat.succ_le_succ (ih document)
          · exact Nat.zero_le _

theorem agreement_of_isPrefix {fed document : List UInt8} (beginning : fed <+: document) :
    agreement fed document = fed.length := by
  induction fed generalizing document with
  | nil => simp [agreement]
  | cons byte fed ih =>
      obtain ⟨rest, rfl⟩ := beginning
      simp [agreement, ih (List.prefix_append fed rest)]

theorem agreement_append_of_not_isPrefix {fed document : List UInt8} (more : List UInt8)
    (strays : fed.isPrefixOf document = false) :
    agreement (fed ++ more) document = agreement fed document := by
  induction fed generalizing document with
  | nil => simp at strays
  | cons byte fed ih =>
      cases document with
      | nil => simp [agreement]
      | cons expected document =>
          simp only [List.cons_append, agreement]
          split
          · rename_i same
            rw [ih (by simpa [List.isPrefixOf, same] using strays)]
          · rfl

/-- Bytes which agree with a document begin like it. -/
theorem take_eq_of_le_agreement {fed document : List UInt8} {count : Nat}
    (agreed : count ≤ agreement fed document) : fed.take count = document.take count := by
  induction count generalizing fed document with
  | zero => rfl
  | succ count ih =>
      match fed, document with
      | [], _ => simp [agreement] at agreed
      | _ :: _, [] => simp [agreement] at agreed
      | byte :: fed, expected :: document =>
          rw [agreement] at agreed
          split at agreed
          · rename_i same
            rw [List.take_succ_cons, List.take_succ_cons, same, ih (Nat.le_of_succ_le_succ agreed)]
          · cases agreed

theorem takeWhile_isPrefix_of_imp {α : Type*} {p q : α → Bool} (weaker : ∀ a, p a → q a)
    (l : List α) : l.takeWhile p <+: l.takeWhile q := by
  have both : (fun a => decide (p a = true ∧ q a = true)) = p := by
    funext a
    cases holds : p a with
    | false => simp
    | true => simp [weaker a holds]
  rw [← both, ← List.takeWhile_takeWhile]
  exact List.takeWhile_prefix p

/-- In a list ordered by position, the entries before a position are its beginning. -/
theorem takeWhile_eq_filter_of_ordered {α : Type*} {position : α → Nat} {entries : List α}
    (ordered : entries.Pairwise fun first second => position first ≤ position second)
    (bound : Nat) :
    (entries.takeWhile fun entry => position entry < bound) =
      entries.filter fun entry => position entry < bound := by
  induction entries with
  | nil => rfl
  | cons entry entries ih =>
      obtain ⟨first, rest⟩ := List.pairwise_cons.mp ordered
      by_cases before : position entry < bound
      · rw [List.takeWhile_cons_of_pos (by simpa using before),
          List.filter_cons_of_pos (by simpa using before), ih rest]
      · rw [List.takeWhile_cons_of_neg (by simpa using before),
          List.filter_cons_of_neg (by simpa using before), eq_comm, List.filter_eq_nil_iff]
        intro later member
        have behind := first later member
        simp only [decide_eq_true_eq]
        omega

/-- A parser which accepts the beginnings of one document and makes the given handler calls, each
as soon as the byte at its position was fed. -/
def Expat.scripted (document : List UInt8) (script : List (Nat × Callback)) : Expat where
  report fed := (script.takeWhile fun entry => entry.1 < agreement fed document).map Prod.snd
  accepts fed := fed.isPrefixOf document
  report_nil := by
    cases script <;> simp [agreement]
  report_extends fed more := by
    refine (takeWhile_isPrefix_of_imp (fun entry reached => ?_) script).map Prod.snd
    simp only [decide_eq_true_eq] at reached ⊢
    exact Nat.lt_of_lt_of_le reached (agreement_le_append fed more document)
  accepts_nil := by simp
  accepts_of_append fed more accepted := by
    rw [List.isPrefixOf_iff_prefix] at accepted ⊢
    exact (List.prefix_append fed more).trans accepted
  report_of_rejected fed more rejected := by
    rw [agreement_append_of_not_isPrefix more rejected]

/-- No bytes cause handler calls of both parsers. -/
def Expat.Apart (first second : Expat) : Prop :=
  ∀ fed, first.report fed = [] ∨ second.report fed = []

/-- A parser for what either of two parsers accepts. -/
def Expat.either (first second : Expat) (apart : first.Apart second) : Expat where
  report fed := first.report fed ++ second.report fed
  accepts fed := first.accepts fed || second.accepts fed
  report_nil := by rw [first.report_nil, second.report_nil, List.append_nil]
  report_extends fed more := by
    have first_extends := first.report_extends fed more
    have second_extends := second.report_extends fed more
    rcases apart (fed ++ more) with silent | silent
    · rw [silent, List.prefix_nil] at first_extends
      rwa [silent, first_extends]
    · rw [silent, List.prefix_nil] at second_extends
      rwa [silent, second_extends, List.append_nil, List.append_nil]
  accepts_nil := by rw [first.accepts_nil, Bool.true_or]
  accepts_of_append fed more accepted := by
    rw [Bool.or_eq_true] at accepted ⊢
    exact accepted.imp (first.accepts_of_append fed more) (second.accepts_of_append fed more)
  report_of_rejected fed more rejected := by
    obtain ⟨first_rejected, second_rejected⟩ := Bool.or_eq_false_iff.mp rejected
    rw [first.report_of_rejected fed more first_rejected,
      second.report_of_rejected fed more second_rejected]

/-! ## Element names -/

/-- An element name of the form `namespace\xFFelement` without its namespace, as `strchr` finds the
separator. -/
def bareName (el : List UInt8) : Option (List UInt8) :=
  (el.dropWhile (· ≠ 0xFF)).tail?

/-- The part of an element name before the separator. -/
def namespaceOf (el : List UInt8) : List UInt8 :=
  el.takeWhile (· ≠ 0xFF)

end Jabsocket
