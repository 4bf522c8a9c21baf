import PgGateway.Proofs.Wire.Bytes
import PgGateway.Proofs.Wire.Measured

/-!
# What is written is taken off again

An item that was written is taken off the front of a buffer, whatever follows it, and leaves what
follows (`Taken.measured_written`). For frames that is `Frame.take_encode`. A whole list of items is
taken off by as many calls as there are items (`Taken.items_written`).
-/

namespace PgGateway

namespace Taken

variable {α : Type}

/-- Calls `take` so many times, and gives all items and what is left of the buffer. One call that
gives no item spoils it all. -/
def items (take : Bytes → Taken α) : Nat → Bytes → Option (List α × Bytes)
  | 0, buffer => some ([], buffer)
  | n + 1, buffer =>
    match take buffer with
    | ⟨.ok (some a), rest⟩ => (items take n rest).map fun (more, left) => (a :: more, left)
    | _ => none

/-- Items that are each taken off whatever follows are all taken off, one call for each. -/
theorem items_written {take : Bytes → Taken α} {write : α → Bytes} (as : List α) (after : Bytes)
    (h : ∀ a ∈ as, ∀ rest, take (write a ++ rest) = ⟨.ok (some a), rest⟩) :
    items take as.length (as.flatMap write ++ after) = some (as, after) := by
  induction as with
  | nil => rfl
  | cons a as ih =>
    have htail := ih fun b hb => h b (List.mem_cons_of_mem a hb)
    rw [List.flatMap_cons, List.append_assoc, List.length_cons, items, h a List.mem_cons_self]
    show (items take as.length (as.flatMap write ++ after)).map _ = _
    rw [htail]
    rfl

/-- An item whose header tells its own length is taken off whatever follows. -/
theorem measured_written {measure : Bytes → Except WireError Nat}
    {read : Bytes → Except WireError α} {head body : Bytes} (rest : Bytes)
    (h : measure head = .ok (head ++ body).length) :
    measured head.length measure read (head ++ body ++ rest) =
      .item (read (head ++ body)) rest := by
  have hhead : (head ++ body ++ rest).take head.length = head := by
    rw [List.append_assoc, List.take_left]
  rw [measured_item _ (by rw [hhead, h]) _, List.take_left, List.drop_left] <;>
    simp only [List.length_append] <;> omega

end Taken

namespace Wire.Frame

theorem length_encode (origin : Origin) (f : Frame) :
    (f.encode origin).length = 1 + f.declaredLength origin := by
  simp only [encode, declaredLength, List.length_append, List.length_cons, length_int32,
    List.length_replicate]
  omega

/-- The length field of a frame tells the length that the frame declares. -/
theorem number_encode {origin : Origin} {f : Frame} (hfit : f.declaredLength origin < 2147483648) :
    number (((f.encode origin).drop 1).take 4) = f.declaredLength origin :=
  number_int32_ofNat hfit

theorem withoutTrailer_append (origin : Origin) (tag : UInt8) (payload : Bytes) :
    withoutTrailer (origin.trailer tag) tag
      (payload ++ List.replicate (origin.trailer tag) 0) = .ok ⟨tag, payload⟩ := by
  have htrailer : origin.trailer tag = 0 ∨ origin.trailer tag = 1 := by
    unfold Origin.trailer
    split <;> split <;> simp
  rcases htrailer with h | h
  · simp [h, withoutTrailer]
  · simp [h, withoutTrailer]

/-- **Frames.** A frame is taken off whatever follows it, if its length fits in the length field and
is within the limit. -/
theorem take_encode {origin : Origin} {limit : Nat} {f : Frame}
    (hlimit : f.declaredLength origin ≤ limit) (hfit : f.declaredLength origin < 2147483648)
    (rest : Bytes) : take origin limit (f.encode origin ++ rest) = ⟨.ok (some f), rest⟩ := by
  let head := f.tag :: int32 (Int32.ofNat (f.declaredLength origin))
  let body := f.payload ++ List.replicate (origin.trailer f.tag) 0
  have hwritten : f.encode origin = head ++ body := by
    rw [encode, List.append_assoc]
  have hdeclared : (Int32.ofNat (f.declaredLength origin)).toInt = f.declaredLength origin :=
    Int32.toInt_ofNat_of_lt hfit
  have hmeasure : measure origin limit head = .ok (head ++ body).length := by
    rw [measure, toInt32_number, hdeclared, Int.toNat_natCast, if_neg, if_neg (by omega),
      ← hwritten, length_encode]
    rw [declaredLength]
    omega
  rw [take_eq_measured, hwritten]
  refine (Taken.measured_written rest hmeasure).trans ?_
  show Taken.item (withoutTrailer (origin.trailer f.tag) f.tag body) rest = _
  rw [withoutTrailer_append]
  rfl

end Wire.Frame

end PgGateway
