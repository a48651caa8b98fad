import TraceStore.Proofs.Record.Reading
import TraceStore.Proofs.Record.RoundTrip

/-!
# Torn and overrun records

A record may have been cut short, or written over a longer one whose end is still there.  Neither is
taken for a record: whatever follows a record has to be blank (`decode_append`), and since a record
ends with the brace that closes it, no part of one that ends earlier is a record.

Both rest on the fact that an object is read to its own brace and no further, whatever follows.
-/

namespace TraceStore.Record

open Json (Blank Input)

variable {session after : Session} {document extra : Input} {record : Decoded}

/-- What is read from a record with something behind it is what is read from the record. -/
theorem readObject_of_decode (accepted : decode session document = (after, .ok record)) :
    ∃ behind, Blank behind ∧ ∀ extra,
      Json.readObject "a flow node record" (Json.overMembers (readRecordMember recordBudget))
        (session, {}) (document ++ extra) = ((after, record), .ok (behind ++ extra)) := by
  obtain ⟨behind, blank, object⟩ := decode_eq_ok_iff.mp accepted
  obtain ⟨gap, text, blankGap, -, rfl, again⟩ :=
    Json.readObject_readsValues readRecordMember_steps _ _ trivial object
  refine ⟨behind, blank, fun extra => ?_⟩
  rw [List.append_assoc, List.append_assoc]
  exact again gap (behind ++ extra) blankGap trivial

/-- A record with something behind it is a record exactly if that is blank, and then the same. -/
theorem decode_append (accepted : decode session document = (after, .ok record)) (extra : Input) :
    ((∃ last other, decode session (document ++ extra) = (last, .ok other)) ↔ Blank extra) ∧
      (Blank extra → decode session (document ++ extra) = (after, .ok record)) := by
  obtain ⟨behind, blank, object⟩ := readObject_of_decode accepted
  have same (blankExtra : Blank extra) :
      decode session (document ++ extra) = (after, .ok record) :=
    decode_eq_ok_iff.mpr ⟨behind ++ extra, blank.append blankExtra, object extra⟩
  refine ⟨⟨?_, fun blankExtra => ⟨after, record, same blankExtra⟩⟩, same⟩
  rintro ⟨last, other, decoded⟩
  obtain ⟨rest, blankRest, again⟩ := decode_eq_ok_iff.mp decoded
  rw [object extra] at again
  obtain ⟨-, sameRest⟩ := Prod.mk.inj again
  obtain rfl := Except.ok.inj sameRest
  exact (List.forall_mem_append.mp blankRest).2

/-- A written record ends with the brace that closes it. -/
theorem encode_eq_concat {id : String} {parentIds : List String} {actions : List Action}
    {bytes : List UInt8} (encoded : encode id parentIds actions = .ok bytes) :
    ∃ front, bytes = front ++ [Json.closeBrace] := by
  obtain ⟨-, rfl⟩ := (encode_eq_ok_iff id parentIds actions bytes).mp encoded
  exact ⟨_, rfl⟩

/-- A record that is cut short anywhere is refused.  With bytes behind it, it is accepted exactly if
all of these are blank, and then it gives the same as without them. -/
theorem torn_or_overrun_record_is_refused {id : String} {parentIds : List String}
    {actions : List Action} {bytes : List UInt8}
    (encoded : encode id parentIds actions = .ok bytes) (session : Session) :
    (∀ part, part <+: bytes → part ≠ bytes →
        ∃ after fault, decode session part = (after, .error fault)) ∧
      ∀ extra,
        ((∃ after record, decode session (bytes ++ extra) = (after, .ok record)) ↔
            ∀ byte ∈ extra, Json.isBlank byte = true) ∧
          ((∀ byte ∈ extra, Json.isBlank byte = true) →
            decode session (bytes ++ extra) = decode session bytes) := by
  have accepted := decode_encode encoded session
  constructor
  · rintro part ⟨missing, rfl⟩ torn
    rcases decoded : decode session part with ⟨after, fault | record⟩
    · exact ⟨after, fault, rfl⟩
    · -- The missing part ends with the closing brace, so it is not blank.
      have blank : Blank missing := (decode_append decoded missing).1.mp ⟨_, _, accepted⟩
      have notEmpty : missing ≠ [] := by
        rintro rfl
        exact torn (List.append_nil part).symm
      obtain ⟨front, ending⟩ := encode_eq_concat encoded
      have isLast := congrArg List.getLast? ending
      rw [List.getLast?_append_of_ne_nil _ notEmpty, List.getLast?_concat] at isLast
      have isBlank := blank _ (List.mem_of_getLast? isLast)
      exact absurd isBlank (by decide)
  · intro extra
    obtain ⟨accepts, same⟩ := decode_append accepted extra
    exact ⟨accepts, fun blank => (same blank).trans accepted.symm⟩

/-- A record without its last byte is refused; one with a line feed behind it is not. -/
theorem torn_record_of_lone_node_is_refused :
    ∃ bytes, encode "a" ["b"] [.flag] = .ok bytes ∧
      (∃ after fault, decode default bytes.dropLast = (after, .error fault)) ∧
      ∃ after record, decode default (bytes ++ [0x0A]) = (after, .ok record) := by
  have encoded : encode "a" ["b"] [.flag] =
      .ok ((toValue "a" ["b"] [Action.flag.toValue]).pretty 0) := rfl
  have detected := torn_or_overrun_record_is_refused encoded default
  refine ⟨_, encoded, ?_, ?_⟩
  · exact detected.1 _ (List.dropLast_prefix _) (by decide)
  · refine (detected.2 [0x0A]).1.mpr fun byte among => ?_
    rw [List.mem_singleton.mp among]
    rfl

end TraceStore.Record
