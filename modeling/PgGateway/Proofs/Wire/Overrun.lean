import PgGateway.Proofs.Wire.Cursor

/-!
# No decoder runs past its bytes

A decoder that works in place asks for bytes only where it has made sure of them, so none of its
operations aborts, whatever the buffer holds, and it ends as the library's own reader does
(`Cursor.Follows`). Bytes are made sure of in front of each run of fixed size (`Follows.ensure`),
a loop uses bytes up in each round (`whileLeft_agrees`), and the header is looked at only when it is
there. So decoding is defined on every buffer (`Cursor.decoding_never_aborts`).
-/

namespace PgGateway.Cursor

open Wire

variable {α β : Type} {a : α} {e : WireError} {bytes rest : Bytes} {n m : Nat} {part : Part}
  {c : Cursor α} {f : α → Cursor β} {r : Reader α} {g : α → Reader β}

/-! ## Running a cursor -/

theorem on_bind_ok (h : c.on bytes = some (.ok a, rest)) :
    (c >>= f).on bytes = (f a).on rest := by
  show StateT.run (ExceptT.run c >>= _) bytes = _
  rw [StateT.run_bind, show StateT.run (ExceptT.run c) bytes = _ from h]
  rfl

theorem on_bind_error (h : c.on bytes = some (.error e, rest)) :
    (c >>= f).on bytes = some (.error e, rest) := by
  show StateT.run (ExceptT.run c >>= _) bytes = _
  rw [StateT.run_bind, show StateT.run (ExceptT.run c) bytes = _ from h]
  rfl

theorem on_get_bind {f : Bytes → Cursor β} : (do f (← get)).on bytes = (f bytes).on bytes := rfl

theorem on_orAbort {o : Option α} (h : o = some a) : (orAbort o).on bytes = some (.ok a, bytes) := by
  rw [h]
  rfl

theorem on_split (h : n ≤ bytes.length) :
    (split n).on bytes = some (.ok (bytes.take n), bytes.drop n) := if_pos h

theorem on_advance (h : n ≤ bytes.length) :
    (advance n).on bytes = some (.ok (), bytes.drop n) := by
  rw [advance, on_bind_ok (on_split h)]
  rfl

theorem on_index {b : UInt8} {i : Nat} (h : bytes[i]? = some b) :
    (index i).on bytes = some (.ok b, bytes) := on_orAbort h

theorem on_front (h : n ≤ bytes.length) :
    (front n).on bytes = some (.ok (bytes.take n), bytes) := on_orAbort (if_pos h)

theorem on_length {i : Int} (h : 0 ≤ i) : (length i).on bytes = some (.ok i.toNat, bytes) :=
  on_orAbort (if_pos h)

theorem on_narrow (h : n < 2 ^ 31) : (narrow n).on bytes = some (.ok (Int32.ofNat n), bytes) :=
  on_orAbort (if_pos h)

theorem on_add (h : m + n < 2 ^ 32) : (add m n).on bytes = some (.ok (m + n), bytes) :=
  on_orAbort (if_pos h)

theorem on_sub (h : n ≤ m) : (sub m n).on bytes = some (.ok (m - n), bytes) :=
  on_orAbort (if_pos h)

/-! ## Cursors and readers -/

/-- The cursor did not abort, and ends as the reader does: with the same value and the same bytes
left, or with the same failure. -/
def Agrees (o : Option (Except WireError α × Bytes)) : Except WireError (α × Bytes) → Prop
  | .ok (a, rest) => o = some (.ok a, rest)
  | .error e => ∃ rest, o = some (.error e, rest)

/-- Where there are `n` bytes, the cursor does what the reader does. -/
def Follows (n : Nat) (c : Cursor α) (r : Reader α) : Prop :=
  ∀ bytes : Bytes, n ≤ bytes.length → Agrees (c.on bytes) (r.run bytes)

/-- Where there are `n` bytes, both take them and give the same value. -/
def Steps (n : Nat) (c : Cursor α) (r : Reader α) : Prop :=
  ∀ bytes : Bytes, n ≤ bytes.length → ∃ a, c.on bytes = some (.ok a, bytes.drop n) ∧
    r.run bytes = .ok (a, bytes.drop n)

namespace Steps

theorem split (n : Nat) : Steps n (Cursor.split n) (Reader.take n) := fun bytes hlen =>
  ⟨bytes.take n, on_split hlen, if_pos (Reader.atLeast_eq_true_iff.2 hlen)⟩

theorem map {h : α → β} (hc : Steps n c r) :
    Steps n (do return h (← c)) (do return h (← r)) := by
  intro bytes hlen
  obtain ⟨a, hcursor, hreader⟩ := hc bytes hlen
  exact ⟨h a, on_bind_ok hcursor, Reader.run_bind hreader⟩

theorem byte : Steps 1 Cursor.byte Reader.byte := (split 1).map

theorem int16 : Steps 2 Cursor.int16 Reader.int16 := (split 2).map

theorem int32 : Steps 4 Cursor.int32 Reader.int32 := (split 4).map

theorem bind (hc : Steps n c r) (hf : ∀ a, Follows m (f a) (g a)) :
    Follows (n + m) (c >>= f) (r >>= g) := by
  intro bytes hlen
  obtain ⟨a, hcursor, hreader⟩ := hc bytes (by omega)
  rw [on_bind_ok hcursor, Reader.run_bind hreader]
  exact hf a (bytes.drop n) (by rw [List.length_drop]; omega)

theorem follows (hc : Steps n c r) : Follows n c r := by
  intro bytes hlen
  obtain ⟨a, hcursor, hreader⟩ := hc bytes hlen
  rw [hreader]
  exact hcursor

end Steps

theorem Agrees.bind (h : Agrees (c.on bytes) (r.run bytes))
    (hf : ∀ a rest, r.run bytes = .ok (a, rest) → Agrees ((f a).on rest) ((g a).run rest)) :
    Agrees ((c >>= f).on bytes) ((r >>= g).run bytes) := by
  rw [StateT.run_bind]
  cases hread : r.run bytes with
  | ok result =>
    rw [hread] at h
    rw [on_bind_ok h]
    exact hf result.1 result.2 hread
  | error e =>
    rw [hread] at h
    obtain ⟨rest, hfailed⟩ := h
    exact ⟨rest, on_bind_error hfailed⟩

namespace Follows

theorem pure (a : α) : Follows 0 (Pure.pure a) (Pure.pure a) := fun _ _ => rfl

theorem throw (e : WireError) : Follows 0 (throw e : Cursor α) (throw e) := fun bytes _ => ⟨bytes, rfl⟩

theorem bind (hc : Follows n c r) (hf : ∀ a, Follows 0 (f a) (g a)) :
    Follows n (c >>= f) (r >>= g) := fun bytes hlen =>
  (hc bytes hlen).bind fun a rest _ => hf a rest (Nat.zero_le _)

theorem map {h : α → β} (hc : Follows n c r) :
    Follows n (do return h (← c)) (do return h (← r)) :=
  hc.bind fun a => pure (h a)

/-- **Bytes that were made sure of are there.** -/
theorem ensure (hc : Follows n c r) :
    Follows 0 (do Cursor.ensure part n; c) (do Reader.need part n; r) := by
  intro bytes _
  by_cases hlen : bytes.length < n
  · have hfailed : (Cursor.ensure part n).on bytes =
        some (.error (.protocol (.truncated part)), bytes) := by
      rw [Cursor.ensure, on_get_bind, if_pos hlen]
      rfl
    have hneed : (Reader.need part n).run bytes = .error (.protocol (.truncated part)) :=
      if_neg fun h => Nat.not_le.2 hlen (Reader.atLeast_eq_true_iff.1 h)
    rw [on_bind_error hfailed, StateT.run_bind, hneed]
    exact ⟨bytes, rfl⟩
  · have hpassed : (Cursor.ensure part n).on bytes = some (.ok (), bytes) := by
      rw [Cursor.ensure, on_get_bind, if_neg hlen]
      rfl
    have hneed : (Reader.need part n).run bytes = .ok ((), bytes) :=
      if_pos (Reader.atLeast_eq_true_iff.2 (Nat.not_lt.1 hlen))
    rw [on_bind_ok hpassed, Reader.run_bind hneed]
    exact hc bytes (Nat.not_lt.1 hlen)

/-- The same where more is read behind these bytes. -/
theorem ensureThen (hc : Steps n c r) (hf : ∀ a, Follows 0 (f a) (g a)) :
    Follows 0 (do Cursor.ensure part n; let a ← c; f a) (do Reader.need part n; let a ← r; g a) :=
  ensure (hc.bind hf)

/-- A length that is not negative can be computed with. -/
theorem length {i : Int} {f : Nat → Cursor β} {r : Reader β} (hi : 0 ≤ i)
    (hf : Follows n (f i.toNat) r) : Follows n (do f (← Cursor.length i)) r := by
  intro bytes hlen
  rw [on_bind_ok (on_length hi)]
  exact hf bytes hlen

theorem times (hc : Follows 0 c r) (n : Nat) :
    Follows 0 (Cursor.times n c) (Reader.times n r) := by
  induction n with
  | zero => exact pure []
  | succ n ih => exact hc.bind fun a => ih.map

end Follows

/-! ## Parts of messages -/

theorem takeWhile_eq_take (bytes : Bytes) :
    bytes.takeWhile (· != 0) = bytes.take (bytes.findIdx (· == 0)) := by
  rw [List.takeWhile_eq_take_findIdx_not]
  simp [bne]

theorem dropWhile_eq_drop (bytes : Bytes) :
    bytes.dropWhile (· != 0) = bytes.drop (bytes.findIdx (· == 0)) := by
  rw [List.dropWhile_eq_drop_findIdx_not]
  simp [bne]

theorem cstring_eq (bytes : Bytes) : Reader.cstring.run bytes =
    match bytes.findIdx? (· == 0) with
    | none => .error (.protocol .missingTerminator)
    | some stop => .ok (Utf8.decode (bytes.take stop), bytes.drop (stop + 1)) := by
  show Reader.cstring bytes = _
  unfold Reader.cstring
  cases hfind : bytes.findIdx? (· == 0) with
  | none =>
    rw [dropWhile_eq_drop, List.findIdx?_eq_none_iff_findIdx_eq.1 hfind, List.drop_length]
  | some stop =>
    obtain ⟨hstop, rfl⟩ := List.findIdx?_eq_some_iff_findIdx_eq.1 hfind
    rw [dropWhile_eq_drop, takeWhile_eq_take, List.drop_eq_getElem_cons hstop]

theorem Follows.cstring : Follows 0 Cursor.cstring Reader.cstring := by
  intro bytes _
  rw [cstring_eq, Cursor.cstring, on_get_bind]
  cases hfind : bytes.findIdx? (· == 0) with
  | none => exact ⟨bytes, rfl⟩
  | some stop =>
    have hstop : stop < bytes.length := (List.findIdx?_eq_some_iff_getElem.1 hfind).1
    show ((front stop >>= _ : Cursor Text).on bytes) = _
    rw [on_bind_ok (on_front hstop.le), on_bind_ok (on_advance hstop)]
    rfl

theorem length_lt_of_cstring {t : Text} (h : Reader.cstring.run bytes = .ok (t, rest)) :
    rest.length < bytes.length := by
  rw [cstring_eq] at h
  split at h
  · cases h
  · next stop hfind =>
    have hstop : stop < bytes.length := (List.findIdx?_eq_some_iff_getElem.1 hfind).1
    cases h
    rw [List.length_drop]
    omega

/-- **Loops end.** A loop that uses bytes up in each round does what the reader does that is given
enough rounds. -/
theorem whileLeft_agrees {round : Cursor (Option α)} {r : Reader (Option α)}
    {loop : Nat → Reader (List α)}
    (hround : ∀ bytes : Bytes, bytes ≠ [] → Agrees (round.on bytes) (r.run bytes))
    (hless : ∀ bytes rest a, r.run bytes = .ok (some a, rest) → rest.length < bytes.length)
    (hzero : loop 0 = pure [])
    (hloop : ∀ n, loop (n + 1) = do
      if (← get).isEmpty then return []
      match ← r with
      | none => return []
      | some a => return a :: (← loop n))
    (n : Nat) (bytes : Bytes) (hn : bytes.length ≤ n) :
    Agrees ((whileLeft round).on bytes) ((loop n).run bytes) := by
  induction n generalizing bytes with
  | zero =>
    obtain rfl := List.length_eq_zero_iff.1 (Nat.le_zero.1 hn)
    rw [hzero]
    show Agrees (roundsOn round []) _
    rw [roundsOn]
    rfl
  | succ n ih =>
    have hget : (get : Reader Bytes).run bytes = .ok (bytes, bytes) := rfl
    show Agrees (roundsOn round bytes) _
    rw [roundsOn, hloop, Reader.run_bind hget]
    by_cases hempty : bytes.isEmpty = true
    · rw [if_pos hempty, if_pos hempty]
      rfl
    rw [if_neg hempty, if_neg hempty, StateT.run_bind]
    have h := hround bytes fun hnil => hempty (List.isEmpty_iff.2 hnil)
    cases hread : r.run bytes with
    | error e =>
      rw [hread] at h
      obtain ⟨rest, hfailed⟩ := h
      exact ⟨rest, by rw [hfailed]⟩
    | ok result =>
      obtain ⟨found, rest⟩ := result
      rw [hread] at h
      rw [show round.on bytes = _ from h]
      cases found with
      | none => rfl
      | some a =>
        have hrest := hless bytes rest a hread
        have hlater := ih rest (by omega)
        show Agrees (if rest.length < bytes.length then
          (roundsOn round rest).map (Prod.map (Except.map (a :: ·)) id) else none)
          ((do return a :: (← loop n) : Reader (List α)).run rest)
        rw [if_pos hrest, StateT.run_bind]
        cases hmore : (loop n).run rest with
        | error e =>
          rw [hmore] at hlater
          obtain ⟨left, hfailed⟩ := hlater
          exact ⟨left, by rw [show roundsOn round rest = _ from hfailed]; rfl⟩
        | ok result =>
          rw [hmore] at hlater
          rw [show roundsOn round rest = _ from hlater]
          rfl

/-! ### Parameters and error fields -/

theorem exists_of_run_bind {b : β} (h : (r >>= g).run bytes = .ok (b, rest)) :
    ∃ a middle, r.run bytes = .ok (a, middle) ∧ (g a).run middle = .ok (b, rest) := by
  rw [StateT.run_bind] at h
  cases hread : r.run bytes with
  | error e =>
    rw [hread] at h
    cases h
  | ok result =>
    rw [hread] at h
    exact ⟨result.1, result.2, rfl, h⟩

theorem length_le_of_byte {b : UInt8} (h : Reader.byte.run bytes = .ok (b, rest)) :
    rest.length ≤ bytes.length := by
  obtain ⟨front, left, hfront, hrest⟩ := exists_of_run_bind h
  cases hrest
  change (if Reader.atLeast 1 bytes then _ else _) = _ at hfront
  split at hfront
  · cases hfront
    exact (List.drop_sublist 1 bytes).length_le
  · cases hfront

/-- Reads a parameter as the cursor does. -/
def parameterReader : Reader (Option (Text × Text)) := do
  let name ← Reader.cstring
  if name.isEmpty then return none
  return some (name, ← Reader.cstring)

/-- Reads an error field as the cursor does. -/
def errorFieldReader : Reader (Option (UInt8 × Text)) := do
  let kind ← Reader.byte
  if kind = 0 then return none
  return some (kind, ← Reader.cstring)

theorem parameters_agree (bytes : Bytes) : Agrees ((whileLeft parameter).on bytes)
    ((Startup.readParameters bytes.length).run bytes) := by
  refine whileLeft_agrees (r := parameterReader) ?_ ?_ rfl ?_ bytes.length bytes (Nat.le_refl _)
  · intro bytes _
    refine (Follows.cstring.bind fun name => ?_) bytes (Nat.zero_le _)
    split
    · exact .pure none
    · exact Follows.cstring.map
  · intro bytes rest found hread
    obtain ⟨name, middle, hname, hread⟩ := exists_of_run_bind hread
    split at hread
    · cases hread
    · obtain ⟨value, left, hvalue, hread⟩ := exists_of_run_bind hread
      cases hread
      exact (length_lt_of_cstring hvalue).trans (length_lt_of_cstring hname)
  · intro n
    refine congrArg (get >>= ·) (funext fun bytes => ?_)
    simp only [parameterReader, bind_assoc]
    split
    · rfl
    · refine congrArg (Reader.cstring >>= ·) (funext fun name => ?_)
      split <;> simp

theorem errorFields_agree (bytes : Bytes) : Agrees ((whileLeft errorField).on bytes)
    ((Backend.readErrorFields bytes.length).run bytes) := by
  refine whileLeft_agrees (r := errorFieldReader) ?_ ?_ rfl ?_ bytes.length bytes (Nat.le_refl _)
  · intro bytes hsome
    refine (Steps.byte.bind (m := 0) fun kind => ?_) bytes (List.length_pos_iff.2 hsome)
    split
    · exact .pure none
    · exact Follows.cstring.map
  · intro bytes rest found hread
    obtain ⟨kind, middle, hkind, hread⟩ := exists_of_run_bind hread
    split at hread
    · cases hread
    · obtain ⟨value, left, hvalue, hread⟩ := exists_of_run_bind hread
      cases hread
      exact (length_lt_of_cstring hvalue).trans_le (length_le_of_byte hkind)
  · intro n
    refine congrArg (get >>= ·) (funext fun bytes => ?_)
    simp only [errorFieldReader, bind_assoc]
    split
    · rfl
    · refine congrArg (Reader.byte >>= ·) (funext fun kind => ?_)
      split <;> simp

theorem Follows.field : Follows 0 Cursor.field Backend.readField := by
  refine Follows.cstring.bind fun name => .ensure ?_
  refine Steps.int32.bind (m := 14) fun tableOid => ?_
  refine Steps.int16.bind (m := 12) fun position => ?_
  refine Steps.int32.bind (m := 8) fun oid => ?_
  refine Steps.int16.bind (m := 6) fun size => ?_
  refine Steps.int32.bind (m := 2) fun modifier => ?_
  exact Steps.int16.map.follows

theorem Follows.value : Follows 0 Cursor.value Backend.readValue := by
  refine .ensureThen Steps.int32 fun declared => ?_
  split
  · exact .pure none
  · next hpos =>
    have hpos : 0 ≤ declared.toInt := by
      rw [Int32.lt_iff_toInt_lt] at hpos
      exact Int.not_lt.1 hpos
    refine .length hpos (.ensure ?_)
    exact .length hpos (Steps.split _).map.follows

theorem Follows.counted {item : Cursor α} (hc : Follows 0 item r) :
    Follows 0 (Cursor.counted part item) (Backend.readCounted part r) := by
  refine .ensureThen Steps.int16 fun count => ?_
  refine .length (Int.le_max_right _ _) ?_
  have hcount : (max count.toInt 0).toNat = count.toInt.toNat := by omega
  rw [hcount]
  exact hc.times _

/-! ## Payloads -/

theorem Follows.get {f : Bytes → Cursor β} {g : Bytes → Reader β}
    (h : ∀ bytes, Agrees ((f bytes).on bytes) ((g bytes).run bytes)) :
    Follows 0 (do f (← MonadState.get)) (do g (← MonadState.get)) := fun bytes _ => h bytes

theorem Follows.message (tag : UInt8) : Follows 0 (Cursor.message tag) (Backend.readPayload tag) := by
  unfold Cursor.message Backend.readPayload
  split
  · refine .ensureThen Steps.int32 fun method => ?_
    split
    · exact .pure _
    · exact .throw _
  split
  · exact Follows.cstring.bind fun name => Follows.cstring.map
  split
  · exact .ensure (Steps.int32.bind (m := 4) fun processId => Steps.int32.map.follows)
  split
  · exact .ensure Steps.byte.map.follows
  split
  · exact (Follows.counted .field).map
  split
  · exact (Follows.counted .value).map
  split
  · exact .get fun bytes => rfl
  split
  · exact .pure _
  split
  · intro bytes _
    exact (errorFields_agree bytes).bind (g := fun fields => Pure.pure (Backend.errorResponse
      (Backend.lastField fields 'S') (Backend.lastField fields 'C') (Backend.lastField fields 'M')))
      fun fields rest _ => rfl
  · exact .throw _

theorem Follows.request : Follows 4 Cursor.request Startup.readBody := by
  refine Steps.int32.bind (m := 0) fun version => ?_
  split
  · intro bytes _
    exact (parameters_agree bytes).bind
      (f := fun parameters => (Pure.pure (Startup.session parameters) : Cursor Startup))
      (g := fun parameters => (Pure.pure (Startup.session parameters) : Reader Startup))
      fun parameters rest _ => rfl
  split
  · exact .pure _
  split
  · exact .pure _
  split
  · exact .ensure (Steps.int32.bind (m := 4) fun processId => Steps.int32.map.follows)
  · exact .throw _

/-- The answer of a cursor that agrees with a reader. -/
theorem Agrees.answer {o : Option (Except WireError α × Bytes)}
    {outcome : Except WireError (α × Bytes)} (h : Agrees o outcome) :
    ∃ rest, o = some (outcome.map Prod.fst, rest) := by
  cases outcome with
  | ok result => exact ⟨result.2, h⟩
  | error e => exact h

theorem on_payload (origin : Origin) (tag : UInt8) (content : Bytes) :
    ∃ rest, (payload (origin.trailer tag) tag).on content =
      some (Frame.withoutTrailer (origin.trailer tag) tag content, rest) := by
  obtain htrailer | htrailer : origin.trailer tag = 0 ∨ origin.trailer tag = 1 := by
    unfold Origin.trailer
    split <;> split <;> simp
  · rw [htrailer]
    exact ⟨content, rfl⟩
  rw [htrailer, payload, if_pos rfl, Frame.withoutTrailer, if_neg Nat.one_ne_zero]
  by_cases hlast : content.getLast? = some 0
  · have hsome : 1 ≤ content.length := by
      cases content with
      | nil => cases hlast
      | cons b content => exact Nat.succ_pos _
    refine ⟨content.take (content.length - 1), ?_⟩
    rw [on_get_bind, if_pos hlast, List.dropLast_eq_take]
    dsimp only
    rw [if_neg (not_not.2 hlast), on_bind_ok (on_sub hsome)]
    rfl
  · refine ⟨content, ?_⟩
    rw [on_get_bind, if_neg hlast]
    dsimp only
    rw [if_pos hlast]
    rfl

/-! ## Headers -/

/-- The cursor did not abort, and gave this answer and left this buffer. -/
def completed (t : Taken α) : Option (Except WireError (Option α) × Bytes) := some (t.answer, t.rest)

theorem on_within {answer : Except WireError α} {buffer : Bytes}
    (h : c.on bytes = some (answer, rest)) : (within bytes c).on buffer = some (answer, buffer) := by
  show (c.on bytes).map _ = _
  rw [h]
  rfl

/-- **Items are measured before they are cut off.** -/
theorem on_item {before least limit : Nat} {declared : Int32} {short : WireError} {read : Cursor α}
    {measure : Bytes → Except WireError Nat} {result : Bytes → Except WireError α}
    (head : Bytes) {body : Bytes} (hbefore : before ≤ 2 ^ 31) (hleast : least < 2 ^ 31)
    (hmeasure : measure head =
      if declared.toInt < least then .error short
      else if limit < declared.toInt.toNat then .error (.tooLarge declared.toInt.toNat limit)
      else .ok (before + declared.toInt.toNat))
    (hread : ∀ bytes : Bytes, before + least ≤ bytes.length → bytes <+: head ++ body →
      ∃ left, read.on bytes = some (result bytes, left)) :
    (item before least limit declared short read).on (head ++ body) =
      completed (Taken.measured head.length measure result (head ++ body)) := by
  have hsmaller : declared < Int32.ofNat least ↔ declared.toInt < least := by
    rw [Int32.lt_iff_toInt_lt, Int32.toInt_ofNat_of_lt hleast]
  have hmost := declared.toInt_lt
  rw [Taken.measured_header rfl, hmeasure, ← Nat.add_comm head.length, ← List.length_append]
  generalize head ++ body = buffer at hread ⊢
  unfold item
  rw [on_get_bind, on_bind_ok (on_narrow hleast)]
  by_cases hshort : declared.toInt < least
  · rw [if_pos (hsmaller.2 hshort), if_pos hshort]
    rfl
  rw [if_neg (mt hsmaller.1 hshort), if_neg hshort, on_bind_ok (on_length (by omega))]
  by_cases hlimit : limit < declared.toInt.toNat
  · rw [if_pos hlimit, if_pos hlimit]
    rfl
  rw [if_neg hlimit, if_neg hlimit, on_bind_ok (on_add (by omega))]
  dsimp only
  by_cases hlong : buffer.length < before + declared.toInt.toNat
  · rw [if_pos hlong, if_pos hlong, on_bind_ok (on_sub hlong.le)]
    rfl
  rw [if_neg hlong, if_neg hlong, on_bind_ok (on_split (by omega))]
  obtain ⟨left, hleft⟩ := hread (buffer.take (before + declared.toInt.toNat))
    (by rw [List.length_take]; omega) (List.take_prefix _ _)
  cases hresult : result (buffer.take (before + declared.toInt.toNat)) with
  | ok a =>
    rw [on_bind_ok (on_within (hresult ▸ hleft))]
    rfl
  | error e =>
    rw [on_bind_error (on_within (hresult ▸ hleft))]
    rfl

theorem on_frame (origin : Origin) (limit : Nat) (buffer : Bytes) :
    (frame origin limit).on buffer = completed (Frame.take origin limit buffer) := by
  rw [Frame.take_eq_measured]
  match buffer with
  | [] | [_] | [_, _] | [_, _, _] | [_, _, _, _] => rfl
  | tag :: a :: b :: c :: d :: body =>
    unfold frame
    rw [on_get_bind, if_neg (by simp), on_bind_ok (on_index rfl), on_bind_ok (on_index rfl),
      on_bind_ok (on_index rfl), on_bind_ok (on_index rfl), on_bind_ok (on_index rfl)]
    refine on_item [tag, a, b, c, d] (by decide) ?_ ?_ fun bytes hlen hprefix => ?_
    · unfold Origin.trailer
      split <;> split <;> decide
    · rw [Frame.measure]
      push_cast
      rfl
    · obtain ⟨more, hbytes⟩ := hprefix
      have hheader : 5 ≤ bytes.length := by omega
      cases bytes with
      | nil => cases hheader
      | cons first content =>
        obtain rfl : first = tag := (List.cons.inj hbytes).1
        rw [on_bind_ok (on_advance hheader)]
        exact on_payload origin first (content.drop 4)

theorem on_startup (limit : Nat) (buffer : Bytes) :
    (startup limit).on buffer = completed (Startup.take limit buffer) := by
  rw [Startup.take_eq_measured]
  match buffer with
  | [] | [_] | [_, _] | [_, _, _] => rfl
  | a :: b :: c :: d :: body =>
    unfold startup
    rw [on_get_bind, if_neg (by simp), on_bind_ok (on_index rfl), on_bind_ok (on_index rfl),
      on_bind_ok (on_index rfl), on_bind_ok (on_index rfl)]
    refine on_item [a, b, c, d] (by decide) (by decide) ?_ fun bytes hlen _ => ?_
    · rw [Startup.measure, Nat.zero_add]
      rfl
    · rw [on_bind_ok (on_advance (by omega))]
      exact (Follows.request (bytes.drop 4) (by rw [List.length_drop]; omega)).answer

theorem on_clientMessage (f : Frame) : ∃ left,
    (clientMessage f.tag).on f.payload = some (.ok (Frontend.ofFrame f), left) := by
  unfold clientMessage Frontend.ofFrame
  split
  · refine ⟨f.payload, ?_⟩
    rw [on_get_bind, ← List.findIdx_eq_getD_findIdx?, on_bind_ok (on_front List.findIdx_le_length),
      takeWhile_eq_take]
    rfl
  split
  · exact ⟨f.payload, rfl⟩
  split
  · exact ⟨f.payload, rfl⟩
  · exact ⟨f.payload, rfl⟩

/-! ## No decoder aborts -/

/-- **Decoding never aborts.** Whatever a buffer holds, whoever sent it and whatever the limit, none
of the operations of the decoders is out of range, no conversion wraps and each loop ends: frames
and startup packets are taken off as the library takes them, with the same answer and the same
buffer left, and the messages in frames of any tag and payload are read as the library reads them.
So there is an item, or more bytes are needed, or the fault is in the header or in the item. -/
theorem decoding_never_aborts :
    (∀ origin limit buffer,
      (frame origin limit).on buffer = completed (Frame.take origin limit buffer) ∧
        ∀ e, (Frame.take origin limit buffer).answer = .error e → e.OfHeader ∨ e.OfItem) ∧
    (∀ limit buffer,
      (startup limit).on buffer = completed (Startup.take limit buffer) ∧
        ∀ e, (Startup.take limit buffer).answer = .error e → e.OfHeader ∨ e.OfItem) ∧
    (∀ f : Frame,
      (∃ left, (message f.tag).on f.payload = some (Backend.ofFrame f, left)) ∧
        ∀ e, Backend.ofFrame f = .error e → e.OfItem) ∧
    ∀ f : Frame, ∃ left, (clientMessage f.tag).on f.payload =
      some (.ok (Frontend.ofFrame f), left) := by
  refine ⟨fun origin limit buffer => ⟨on_frame origin limit buffer, fun e he => ?_⟩,
    fun limit buffer => ⟨on_startup limit buffer, (Startup.take_allOrNothing limit).failed buffer⟩,
    fun f => ⟨?_, (Backend.sound_ofFrame f).2⟩, on_clientMessage⟩
  · have hframe := (Frame.allOrNothing_bind (f := .ok) origin limit nofun).failed buffer e
    rw [Taken.bind_ok] at hframe
    exact hframe he
  · exact (Follows.message f.tag f.payload (Nat.zero_le _)).answer

end PgGateway.Cursor
