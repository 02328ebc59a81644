import NeonDiff.Lib.Lines
import NeonDiff.Lib.Separators
import NeonDiff.Queue.Unfinished

/-! # Attempt ids name their heads -/

namespace NeonDiff.Discovery

open NeonDiff.Lib NeonDiff.Lib.JsText NeonDiff.Store NeonDiff.Queue

/-- Texts that an attempt id can be read back from: GitHub has no other. -/
structure Clean (head : HeadKey) : Prop where
  repo : '#' ∉ head.repo.toList
  sha : ':' ∉ head.headSha.toList

def NamedAfter (head : HeadKey) (attemptId : String) : Prop :=
  ∃ input : EnqueueInput, ∃ uuid : String, input.head = head ∧ InFamily (buildReviewQueueAttemptId input uuid) attemptId

/-- Every job is named after its head. -/
def Named (s : State) : Prop := ∀ j ∈ s.jobs.rows, Clean j.head ∧ NamedAfter j.head j.attemptId

def sourceText : ReviewQueueJobSource → List Char
  | .manualCommand => "manual:".toList
  | .automatic => "automatic:".toList

theorem head?_sourceText (source : ReviewQueueJobSource) :
    (sourceText source).head? = some (if source = .manualCommand then 'm' else 'a') := by
  cases source <;> rfl

theorem toList_toString (n : Nat) : (toString n).toList = Nat.toDigits 10 n := Nat.toList_repr

theorem buildReviewQueueAttemptId_eq (input : EnqueueInput) (uuid : String) : ∃ rest,
    (buildReviewQueueAttemptId input uuid).toList = sourceText input.source ++ (input.head.repo.toList ++ '#' ::
      (Nat.toDigits 10 input.head.pullNumber ++ '@' :: (input.head.headSha.toList ++ ':' :: rest))) := by
  have hhash : "#".toList = ['#'] := rfl
  have hat : "@".toList = ['@'] := rfl
  cases hsource : input.source with
  | automatic =>
    have hbase : ":base=".toList = [':', 'b', 'a', 's', 'e', '='] := rfl
    refine ⟨['b', 'a', 's', 'e', '='] ++ (input.baseSha.getD "unknown").toList, ?_⟩
    unfold sourceText
    simp only [buildReviewQueueAttemptId, hsource]
    simp only [String.toList_append, hhash, hat, hbase, List.append_assoc]
    simp only [toList_toString]
    simp only [List.cons_append, List.nil_append]
  | manualCommand =>
    have hcolon : ":".toList = [':'] := rfl
    refine ⟨(input.commentId.elim uuid toString).toList, ?_⟩
    unfold sourceText
    simp only [buildReviewQueueAttemptId, hsource]
    simp only [String.toList_append, hhash, hat, hcolon, List.append_assoc]
    simp only [toList_toString]
    simp only [List.cons_append, List.nil_append]

theorem at_notMem_toDigits (n : Nat) : '@' ∉ Nat.toDigits 10 n := by
  intro h
  have hdigit := isDigit_of_mem_toDigits h
  exact absurd hdigit (by decide)

theorem prefix_of_inFamily {base attemptId : String} (h : InFamily base attemptId) :
    base.toList <+: attemptId.toList := by
  rcases h with rfl | h
  · exact List.prefix_refl _
  · exact (List.prefix_append _ _).trans (isRetryOf_iff.mp h)

theorem head_of_namedAfter {head head' : HeadKey} {attemptId : String} (h : NamedAfter head attemptId)
    (h' : NamedAfter head' attemptId) (hclean : Clean head) (hclean' : Clean head') : head = head' := by
  obtain ⟨input, uuid, rfl, hfamily⟩ := h
  obtain ⟨input', uuid', rfl, hfamily'⟩ := h'
  obtain ⟨more, hmore⟩ := prefix_of_inFamily hfamily
  obtain ⟨more', hmore'⟩ := prefix_of_inFamily hfamily'
  obtain ⟨rest, hrest⟩ := buildReviewQueueAttemptId_eq input uuid
  obtain ⟨rest', hrest'⟩ := buildReviewQueueAttemptId_eq input' uuid'
  rw [hrest, List.append_assoc, List.append_assoc] at hmore
  rw [hrest', List.append_assoc, List.append_assoc] at hmore'
  have hequal := hmore.trans hmore'.symm
  have hsource : input.source = input'.source := by
    have hfirst := congrArg List.head? hequal
    simp only [List.head?_append, head?_sourceText, Option.some_or] at hfirst
    cases hs : input.source <;> cases hs' : input'.source <;> rw [hs, hs'] at hfirst
    · exact absurd hfirst (by decide)
    · exact absurd hfirst (by decide)
  rw [hsource] at hequal
  have htarget := List.append_cancel_left hequal
  simp only [List.cons_append, List.append_assoc] at htarget
  obtain ⟨hrepo, hbehind⟩ := Separators.append_cons_inj_front hclean.repo hclean'.repo htarget
  obtain ⟨hnumber, hbehind⟩ :=
    Separators.append_cons_inj_front (at_notMem_toDigits _) (at_notMem_toDigits _) hbehind
  obtain ⟨hsha, -⟩ := Separators.append_cons_inj_front hclean.sha hclean'.sha hbehind
  have hvalue := congrArg digitsValue hnumber
  rw [digitsValue_toDigits, digitsValue_toDigits] at hvalue
  cases hhead : input.head
  cases hhead' : input'.head
  rw [hhead, hhead'] at hrepo hsha hvalue
  simp only [HeadKey.mk.injEq]
  exact ⟨String.toList_inj.mp hrepo, hvalue, String.toList_inj.mp hsha⟩

end NeonDiff.Discovery
