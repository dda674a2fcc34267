import FeedQuery.Proofs.Consultation
import FeedQuery.Proofs.Writes

/-!
# Simplified predicates mean what they are made of

Every plan is made of predicates that were simplified as they were put together. Each way of putting them together means
what it says, whatever the terms are, and so does keeping the scores that two collaborators have in common
(`Predicate.simplified_accepts`): for a document whose `_id` is a text, which spells one identifier at most. A list of
identifiers can be accepted by either of two sets of scores for the sake of different elements.
-/

namespace FeedQuery

namespace Scores

variable {a b : Scores} {id : Uuid}

theorem contains_iff {s : Scores} : s.contains id = true ↔ id ∈ s.ids := by
  simp [contains, ids]

/-- The identifiers that are kept are those of both. -/
theorem mem_ids_intersect : id ∈ (a.intersect b).ids ↔ id ∈ a.ids ∧ id ∈ b.ids := by
  simp only [ids, intersect, List.mem_map, List.mem_filter, contains_iff]
  constructor
  · rintro ⟨entry, ⟨hentry, hb⟩, rfl⟩
    exact ⟨⟨entry, hentry, rfl⟩, hb⟩
  · rintro ⟨⟨entry, hentry, rfl⟩, hb⟩
    exact ⟨entry, ⟨hentry, hb⟩, rfl⟩

end Scores

/-- A simplified conjunction is satisfied where each of its terms is, a simplified disjunction where one of its terms
is, and a simplified negation where its term is not, whatever the terms are made of. And a document whose `_id` is a
text has one of the scores that two collaborators have in common where it has a score of each. -/
theorem Predicate.simplified_accepts (terms : List Predicate) (p : Predicate) (a b : Scores) (d : Document) :
    ((all terms).accepts d = true ↔ ∀ term ∈ terms, term.accepts d = true) ∧
    ((any terms).accepts d = true ↔ ∃ term ∈ terms, term.accepts d = true) ∧
    (p.negate.accepts d = true ↔ ¬ p.accepts d = true) ∧
    ∀ text, d.get? .id = some (.string text) →
      ((a.intersect b).predicate.accepts d = true ↔ a.predicate.accepts d = true ∧ b.predicate.accepts d = true) := by
  refine ⟨?_, ?_, ?_, ?_⟩
  · rw [accepts_all, List.all_eq_true]
  · rw [accepts_any, List.any_eq_true]
  · rw [accepts_negate, Bool.not_eq_true', Bool.not_eq_true]
  · intro text htext
    rw [Scores.accepts_predicate_iff htext, Scores.accepts_predicate_iff htext, Scores.accepts_predicate_iff htext]
    constructor
    · rintro ⟨id, hid, hspelled⟩
      obtain ⟨ha, hb⟩ := Scores.mem_ids_intersect.1 hid
      exact ⟨⟨id, ha, hspelled⟩, id, hb, hspelled⟩
    · rintro ⟨⟨id, ha, hspelled⟩, other, hb, hother⟩
      -- a text spells one identifier
      obtain rfl : id = other := Option.some.inj (hspelled.symm.trans hother)
      exact ⟨id, Scores.mem_ids_intersect.2 ⟨ha, hb⟩, hspelled⟩

namespace Sample

/-- The scores of two similar documents. -/
def similarScores : Scores := ⟨[(⟨10⟩, .ofInt 2), (⟨11⟩, .ofInt 1)]⟩

/-- The scores of two documents that were found, one of which is similar. -/
def foundScores : Scores := ⟨[(⟨10⟩, .ofInt 1), (⟨12⟩, .ofInt 3)]⟩

end Sample

/-- The theorem at a document that has a score of each collaborator under another spelling of its identifier. -/
theorem Predicate.simplified_accepts_respelled :
    Sample.respelled.get? .id = some (.string "urn:uuid:00000000-0000-0000-0000-00000000000A") ∧
      (Sample.similarScores.intersect Sample.foundScores).predicate.accepts Sample.respelled = true := by
  refine ⟨rfl, ?_⟩
  have hmeaning := simplified_accepts [] .never Sample.similarScores Sample.foundScores Sample.respelled
  exact (hmeaning.2.2.2 _ rfl).2 ⟨by decide, by decide⟩

/-- A list of identifiers is accepted by both sets of scores, and not by what they have in common. -/
example : let d : Document := ⟨[("_id", .array [.string (Uuid.mk 11).toText, .string (Uuid.mk 12).toText])]⟩
    Sample.similarScores.predicate.accepts d = true ∧ Sample.foundScores.predicate.accepts d = true ∧
      (Sample.similarScores.intersect Sample.foundScores).predicate.accepts d = false := by decide

end FeedQuery
