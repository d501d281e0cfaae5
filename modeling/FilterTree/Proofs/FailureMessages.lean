import FilterTree.Proofs.Conditions
import FilterTree.Report
import Mathlib.Data.List.TakeWhile

/-!
# Messages tell failures apart

A message names a key as it is. A key may hold quotes, blanks, or the very
words that messages are made of, and a reason for which a document is refused
may read like any message at all. No failure has the message of another
nevertheless (`Failure.message_injective`).

What makes it so is where the words stand and not what is between them. The
first word of a message is its **subject**, the name of an operator unless a
document is at fault, and no subject has a blank in it. After it comes the
**complaint**, and how that begins and ends depends on the failure alone: the
complaints about a key begin alike and end in different letters, and every
other two of them differ before a key or a reason begins. So all that is not
fixed is read off by taking away what is.

A report has the message of its failure. So it stands for that failure and no
other (`Report.ofFailure_eq_iff`).
-/

namespace FilterTree

/-- No operator has a blank in its name. -/
theorem Operator.blank_notMem_name (operator : Operator) : ' ' ∉ operator.name.toList := by
  cases operator with
  | compare relation => cases relation <;> decide
  | member => decide
  | join connective => cases connective <;> decide
  | negate => decide

namespace Failure

/-- **The subject of a message**, its first word. -/
def subject : Failure → String
  | .undecodable _ => "canonical"
  | .emptyKey operator => operator.name
  | .emptyValues _ => Operator.member.name
  | .notFinite operator _ => operator.name

/-- **The complaint of a message**, what comes after the first word. -/
def complaint : Failure → String
  | .undecodable reason => String.join ["form decode failed: ", reason]
  | .emptyKey _ => "predicate requires a non-empty key"
  | .emptyValues key => String.join ["predicate on '", key, "' requires at least one value"]
  | .notFinite _ key => String.join ["predicate on '", key, "' received a non-finite float"]

/-- **A message** is its subject, a blank and its complaint. -/
theorem toList_message (failure : Failure) :
    failure.message.toList = failure.subject.toList ++ ' ' :: failure.complaint.toList := by
  cases failure with
  | undecodable reason => simp [message, subject, complaint]
  | emptyKey operator => simp [message, subject, complaint]
  | emptyValues key => simp [message, subject, complaint, Operator.name]
  | notFinite operator key => simp [message, subject, complaint]

/-- **The subject is one word.** -/
theorem blank_notMem_subject (failure : Failure) : ' ' ∉ failure.subject.toList := by
  cases failure with
  | undecodable reason => exact (by decide : ' ' ∉ "canonical".toList)
  | emptyKey operator => exact operator.blank_notMem_name
  | emptyValues key => exact Operator.member.blank_notMem_name
  | notFinite operator key => exact operator.blank_notMem_name

/-- **The subject is the first word** of the message. -/
theorem takeWhile_message (failure : Failure) :
    failure.message.toList.takeWhile (· ≠ ' ') = failure.subject.toList := by
  have hword : ∀ c ∈ failure.subject.toList, decide (c ≠ ' ') = true := by
    intro c hc
    refine decide_eq_true ?_
    rintro rfl
    exact failure.blank_notMem_subject hc
  rw [toList_message, List.takeWhile_append_of_pos hword,
    List.takeWhile_cons_of_neg (by simp), List.append_nil]

/-- **A failure is given by its subject and its complaint.** -/
theorem eq_of_complaint_eq {f g : Failure} (hsubject : f.subject = g.subject)
    (h : f.complaint = g.complaint) : f = g := by
  have hchars := congrArg String.toList h
  cases f <;> cases g
  case undecodable.undecodable reason other =>
    have hreason : reason = other := by simpa [complaint] using h
    rw [hreason]
  case emptyKey.emptyKey operator other =>
    rw [Operator.name_injective hsubject]
  case emptyValues.emptyValues key other =>
    have hkey : key = other := by simpa [complaint] using h
    rw [hkey]
  case notFinite.notFinite operator key other otherKey =>
    have hkey : key = otherKey := by simpa [complaint] using h
    rw [Operator.name_injective hsubject, hkey]
  -- a key may end like a complaint, but the complaint ends after it
  case emptyValues.notFinite key operator other =>
    have hlast := congrArg List.getLast? hchars
    simp [complaint, List.getLast?_cons] at hlast
  case notFinite.emptyValues operator key other =>
    have hlast := congrArg List.getLast? hchars
    simp [complaint, List.getLast?_cons] at hlast
  -- all other complaints differ in words that stand in front of a key or a reason
  all_goals simp [complaint] at hchars

/-- **Failures have different messages.** -/
theorem message_injective : Function.Injective message := by
  intro f g h
  have hsubject : f.subject.toList = g.subject.toList := by
    rw [← takeWhile_message, ← takeWhile_message, h]
  have hcomplaint : f.complaint.toList = g.complaint.toList := by
    have hparts : f.subject.toList ++ ' ' :: f.complaint.toList
        = g.subject.toList ++ ' ' :: g.complaint.toList := by
      rw [← toList_message, ← toList_message, h]
    rw [hsubject] at hparts
    exact (List.cons.inj (List.append_cancel_left hparts)).2
  exact eq_of_complaint_eq (String.toList_inj.1 hsubject) (String.toList_inj.1 hcomplaint)

end Failure

/-- **A report stands for one failure.** Reports of different failures are
different, and the messages alone differ already, whatever the keys and the
reasons are. -/
theorem Report.ofFailure_eq_iff (f g : Failure) :
    (ofFailure f = ofFailure g ↔ f = g) ∧ (f.message = g.message ↔ f = g) := by
  have hmessage : f.message = g.message ↔ f = g := Failure.message_injective.eq_iff
  refine ⟨⟨fun h => hmessage.1 (congrArg Report.message h), fun h => by rw [h]⟩, hmessage⟩

end FilterTree
