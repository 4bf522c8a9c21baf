import PgGateway.Proofs.Text.Utf8
import PgGateway.Wire.Bytes

/-!
# Fields are read as they were written

`Reader.Reads r written a` says that a reader that meets the bytes `written`, whatever follows them,
gives `a` and leaves what follows. Every kind of field has such a statement about its writer and its
reader, and the statement passes through the composition of readers (`Reads.bind`, `Reads.times`),
so that the statement for a whole body is put together from those for its fields.
-/

namespace PgGateway.Wire

/-! ## Numbers -/

@[simp]
theorem length_int16 (i : Int16) : (int16 i).length = 2 := rfl

@[simp]
theorem length_int32 (i : Int32) : (int32 i).length = 4 := rfl

theorem number_bytes16 (n : UInt16) : number (bytes16 n) = n.toNat := by
  have hn := n.toNat_lt
  simp only [number, bytes16, List.foldl_cons, List.foldl_nil, UInt8.toNat_ofNat']
  omega

theorem number_bytes32 (n : UInt32) : number (bytes32 n) = n.toNat := by
  have hn := n.toNat_lt
  simp only [number, bytes32, List.foldl_cons, List.foldl_nil, UInt8.toNat_ofNat']
  omega

theorem toInt16_number (i : Int16) : (UInt16.ofNat (number (int16 i))).toInt16 = i := by
  rw [int16, number_bytes16, UInt16.ofNat_toNat, Int16.toInt16_toUInt16]

theorem toInt32_number (i : Int32) : (UInt32.ofNat (number (int32 i))).toInt32 = i := by
  rw [int32, number_bytes32, UInt32.ofNat_toNat, Int32.toInt32_toUInt32]

theorem number_singleton (b : UInt8) : UInt8.ofNat (number [b]) = b := by
  simp [number]

/-- A length that fits in the field is the number that the field writes. -/
theorem number_int32_ofNat {n : Nat} (h : n < 2147483648) : number (int32 (Int32.ofNat n)) = n := by
  rw [int32, number_bytes32, Int32.toUInt32_ofNat', UInt32.toNat_ofNat']
  omega

namespace Reader

variable {α β : Type}

/-- On the bytes `written`, whatever follows them, the reader gives `a` and leaves what follows. -/
def Reads (r : Reader α) (written : Bytes) (a : α) : Prop :=
  ∀ rest, r.run (written ++ rest) = .ok (a, rest)

/-! ## Composition of readers -/

theorem run_bind {r : Reader α} {f : α → Reader β} {bytes rest : Bytes} {a : α}
    (h : r.run bytes = .ok (a, rest)) : (r >>= f).run bytes = (f a).run rest := by
  rw [StateT.run_bind, h]
  rfl

namespace Reads

theorem pure (a : α) : Reads (Pure.pure a) [] a := fun _ => rfl

theorem bind {r : Reader α} {f : α → Reader β} {w w' : Bytes} {a : α} {b : β}
    (hr : Reads r w a) (hf : Reads (f a) w' b) : Reads (r >>= f) (w ++ w') b := by
  intro rest
  rw [List.append_assoc, run_bind (hr _), hf]

/-- The last field of a body. -/
theorem map {r : Reader α} {f : α → β} {w : Bytes} {a : α} (hr : Reads r w a) :
    Reads (do return f (← r)) w (f a) := by
  intro rest
  rw [run_bind (hr rest)]
  rfl

/-- Making sure of bytes that are there changes nothing. -/
theorem need {part : Part} {n : Nat} {r : Reader β} {w : Bytes} {b : β} (hn : n ≤ w.length)
    (hr : Reads r w b) : Reads (do Reader.need part n; r) w b := by
  intro rest
  have hneed : (Reader.need part n).run (w ++ rest) = .ok ((), w ++ rest) := by
    show (if atLeast n (w ++ rest) then _ else _) = _
    rw [if_pos]
    rw [atLeast_eq_true_iff, List.length_append]
    omega
  rw [run_bind hneed, hr]

/-- Stopping at the end of the body changes nothing before it. -/
theorem unlessEmpty {r : Reader β} {w : Bytes} {b c : β} (hw : w ≠ []) (hr : Reads r w b) :
    Reads (do if (← get).isEmpty then return c else r) w b := by
  intro rest
  have hget : (get : Reader Bytes).run (w ++ rest) = .ok (w ++ rest, w ++ rest) := rfl
  have hnonempty : ¬(w ++ rest).isEmpty = true := by
    rw [List.isEmpty_iff, List.append_eq_nil_iff]
    exact fun h => hw h.1
  rw [run_bind hget, if_neg hnonempty, hr]

/-- A reader that is given the number of unread bytes reads with any number that is enough. -/
theorem withLength {r : Nat → Reader β} {w : Bytes} {b : β}
    (hr : ∀ n, w.length ≤ n → Reads (r n) w b) : Reads (do r (← get).length) w b := by
  intro rest
  have hget : (get : Reader Bytes).run (w ++ rest) = .ok (w ++ rest, w ++ rest) := rfl
  rw [run_bind hget, hr _ (by rw [List.length_append]; omega)]

/-- Readers that read their own items read the items one after the other. -/
theorem times {r : Reader α} {write : α → Bytes} (items : List α)
    (h : ∀ a ∈ items, Reads r (write a) a) :
    Reads (Reader.times items.length r) (items.flatMap write) items := by
  induction items with
  | nil => exact Reads.pure []
  | cons a items ih =>
    have htail := ih fun b hb => h b (List.mem_cons_of_mem a hb)
    exact (h a List.mem_cons_self).bind htail.map

/-! ## Fields -/

theorem take {n : Nat} {w : Bytes} (hn : w.length = n) : Reads (Reader.take n) w w := by
  intro rest
  show (if atLeast n (w ++ rest) then _ else _) = _
  rw [if_pos, List.take_left' hn, List.drop_left' hn]
  rw [atLeast_eq_true_iff, List.length_append]
  omega

theorem byte (b : UInt8) : Reads Reader.byte [b] b := by
  have h := (Reads.take (n := 1) (w := [b]) rfl).map (f := fun w => UInt8.ofNat (number w))
  rwa [number_singleton] at h

theorem int16 (i : Int16) : Reads Reader.int16 (Wire.int16 i) i := by
  have h := (Reads.take (length_int16 i)).map (f := fun w => (UInt16.ofNat (number w)).toInt16)
  rwa [toInt16_number] at h

theorem int32 (i : Int32) : Reads Reader.int32 (Wire.int32 i) i := by
  have h := (Reads.take (length_int32 i)).map (f := fun w => (UInt32.ofNat (number w)).toInt32)
  rwa [toInt32_number] at h

/-- A string without a zero is read up to the zero byte after it. -/
theorem cstring {t : Text} (h : '\x00' ∉ t) : Reads Reader.cstring (Wire.cstring t) t := by
  intro rest
  have hne := Utf8.encode_ne_zero h
  have hbytes : Wire.cstring t ++ rest = Utf8.encode t ++ 0 :: rest := by
    rw [Wire.cstring, List.append_assoc, List.singleton_append]
  have hdrop : (Utf8.encode t ++ 0 :: rest).dropWhile (· != 0) = 0 :: rest := by
    rw [List.dropWhile_append_of_pos hne, List.dropWhile_cons_of_neg (by simp)]
  have htake : (Utf8.encode t ++ 0 :: rest).takeWhile (· != 0) = Utf8.encode t := by
    rw [List.takeWhile_append_of_pos hne, List.takeWhile_cons_of_neg (by simp), List.append_nil]
  rw [hbytes]
  unfold Reader.cstring
  simp only [StateT.run, hdrop, htake, Utf8.decode_encode]

end Reads

end Reader

end PgGateway.Wire
