import PgGateway.Wire.Backend
import PgGateway.Wire.Frontend

/-!
# Items that say how long they are

Every item on the wire begins with a header that tells its length. `Taken.measured` takes such an
item off a buffer, whatever the header looks like and however the item is read; packets of startup,
frames, and the messages of either side are all instances (`take_eq_measured`). What a buffer can
and cannot change about an answer is proved once, for `measured`, and stated as `Taken.Local`: more
bytes change no answer that was given, and no answer is given before its last byte is there.
-/

namespace PgGateway

namespace Taken

variable {α β : Type}

/-- Takes off the front of a buffer an item that is measured by its header of `header` bytes. The
header is refused, or tells the length of the whole item. -/
def measured (header : Nat) (measure : Bytes → Except WireError Nat)
    (read : Bytes → Except WireError α) (buffer : Bytes) : Taken α :=
  if buffer.length < header then .incomplete buffer
  else
    match measure (buffer.take header) with
    | .error e => .refused e buffer
    | .ok length =>
      if buffer.length < length then .incomplete buffer
      else .item (read (buffer.take length)) (buffer.drop length)

/-- The number of bytes of the buffer that an answer rests on: those of the item that is gone from
the buffer, or those of the header if it was refused and all of the buffer is left. -/
def used (header : Nat) (buffer rest : Bytes) : Nat :=
  if rest.length < buffer.length then buffer.length - rest.length else header

/-- **Locality.** An answer rests on the bytes of one item and on nothing else: it is not given
before they are there, and what follows them is left as it is. -/
structure Local (header : Nat) (take : Bytes → Taken α) : Prop where
  header_pos : 0 < header
  append : ∀ {buffer rest answer}, take buffer = ⟨answer, rest⟩ → answer ≠ .ok none →
    ∀ more, take (buffer ++ more) = ⟨answer, rest ++ more⟩
  early : ∀ {buffer rest answer}, take buffer = ⟨answer, rest⟩ → answer ≠ .ok none →
    ∀ n < used header buffer rest, take (buffer.take n) = .incomplete (buffer.take n)
  enough : ∀ {buffer rest answer}, take buffer = ⟨answer, rest⟩ → answer ≠ .ok none →
    ∀ n, used header buffer rest ≤ n →
      take (buffer.take n) = ⟨answer, rest.take (n - (buffer.length - rest.length))⟩

section Measured

variable {header : Nat} {measure : Bytes → Except WireError Nat}
  {read : Bytes → Except WireError α} {buffer : Bytes} {length : Nat} {e : WireError}

theorem measured_short (h : buffer.length < header) :
    measured header measure read buffer = .incomplete buffer := by
  rw [measured, if_pos h]

theorem measured_refused (hlen : header ≤ buffer.length)
    (h : measure (buffer.take header) = .error e) :
    measured header measure read buffer = .refused e buffer := by
  rw [measured, if_neg (by omega), h]

theorem measured_long (hlen : header ≤ buffer.length)
    (h : measure (buffer.take header) = .ok length) (hlong : buffer.length < length) :
    measured header measure read buffer = .incomplete buffer := by
  rw [measured, if_neg (by omega), h]
  exact if_pos hlong

theorem measured_item (hlen : header ≤ buffer.length)
    (h : measure (buffer.take header) = .ok length) (hall : length ≤ buffer.length) :
    measured header measure read buffer =
      .item (read (buffer.take length)) (buffer.drop length) := by
  rw [measured, if_neg (by omega), h]
  exact if_neg (by omega)

/-- When the header is there, its measure decides. -/
theorem measured_header {head body : Bytes} (hhead : head.length = header) :
    measured header measure read (head ++ body) =
      match measure head with
      | .error e => .refused e (head ++ body)
      | .ok length =>
        if body.length + header < length then .incomplete (head ++ body)
        else .item (read ((head ++ body).take length)) ((head ++ body).drop length) := by
  subst hhead
  rw [measured, List.take_left, List.length_append, if_neg (by omega), Nat.add_comm]

/-- All that can come of taking a measured item, if it is not incomplete: its header is refused, or
it is there. -/
theorem measured_answered {answer : Except WireError (Option α)} {rest : Bytes}
    (h : measured header measure read buffer = ⟨answer, rest⟩) (answered : answer ≠ .ok none) :
    header ≤ buffer.length ∧
      ((∃ e, measure (buffer.take header) = .error e ∧ answer = .error e ∧ rest = buffer) ∨
        ∃ length, measure (buffer.take header) = .ok length ∧ length ≤ buffer.length ∧
          answer = (read (buffer.take length)).map some ∧ rest = buffer.drop length) := by
  by_cases hshort : buffer.length < header
  · rw [measured_short hshort] at h
    cases h
    exact absurd rfl answered
  have hlen : header ≤ buffer.length := by omega
  refine ⟨hlen, ?_⟩
  cases hm : measure (buffer.take header) with
  | error e =>
    rw [measured_refused hlen hm] at h
    cases h
    exact .inl ⟨e, rfl, rfl, rfl⟩
  | ok length =>
    by_cases hlong : buffer.length < length
    · rw [measured_long hlen hm hlong] at h
      cases h
      exact absurd rfl answered
    · rw [measured_item hlen hm (by omega)] at h
      cases h
      exact .inr ⟨length, rfl, by omega, rfl, rfl⟩

/-- The bytes that an item rests on are its own. -/
theorem used_drop (hpos : 0 < length) (hall : length ≤ buffer.length) :
    used header buffer (buffer.drop length) = length := by
  rw [used, List.length_drop, if_pos (by omega)]
  omega

/-- A header that is refused leaves the buffer as it is. -/
theorem used_self : used header buffer buffer = header :=
  if_neg (Nat.lt_irrefl _)

/-- **Measured items are taken locally.** -/
theorem measured_local (hpos : 0 < header)
    (hmeasure : ∀ head length, measure head = .ok length → header ≤ length) :
    Local header (measured header measure read) where
  header_pos := hpos
  append := by
    intro buffer rest answer h answered more
    obtain ⟨hlen, hcase⟩ := measured_answered h answered
    have hhead : (buffer ++ more).take header = buffer.take header :=
      List.take_append_of_le_length hlen
    have hlen' : header ≤ (buffer ++ more).length := by
      rw [List.length_append]
      omega
    rcases hcase with ⟨e, hm, rfl, rfl⟩ | ⟨length, hm, hall, rfl, rfl⟩
    · exact measured_refused hlen' (by rw [hhead, hm])
    · have hall' : length ≤ (buffer ++ more).length := by
        rw [List.length_append]
        omega
      rw [measured_item hlen' (by rw [hhead, hm]) hall', List.take_append_of_le_length hall,
        List.drop_append_of_le_length hall]
      rfl
  early := by
    intro buffer rest answer h answered n hn
    obtain ⟨hlen, hcase⟩ := measured_answered h answered
    by_cases hshort : n < header
    · exact measured_short (by rw [List.length_take]; omega)
    have hhead : (buffer.take n).take header = buffer.take header := by
      rw [List.take_take, Nat.min_eq_left (by omega)]
    rcases hcase with ⟨e, hm, rfl, rfl⟩ | ⟨length, hm, hall, rfl, rfl⟩
    · -- a header that is refused is all that the answer rests on
      rw [used_self] at hn
      exact absurd hn hshort
    · have hle := hmeasure _ _ hm
      rw [used_drop (by omega) hall] at hn
      refine measured_long ?_ (by rw [hhead, hm]) ?_ <;>
        rw [List.length_take] <;> omega
  enough := by
    intro buffer rest answer h answered n hn
    obtain ⟨hlen, hcase⟩ := measured_answered h answered
    rcases hcase with ⟨e, hm, rfl, rfl⟩ | ⟨length, hm, hall, rfl, rfl⟩
    · rw [used_self] at hn
      have hhead : (rest.take n).take header = rest.take header := by
        rw [List.take_take, Nat.min_eq_left hn]
      rw [measured_refused (by rw [List.length_take]; omega) (by rw [hhead, hm]), Nat.sub_self,
        Nat.sub_zero]
      rfl
    · have hle := hmeasure _ _ hm
      rw [used_drop (by omega) hall] at hn
      have hhead : (buffer.take n).take header = buffer.take header := by
        rw [List.take_take, Nat.min_eq_left (by omega)]
      have hitem : (buffer.take n).take length = buffer.take length := by
        rw [List.take_take, Nat.min_eq_left hn]
      have hused : buffer.length - (buffer.drop length).length = length := by
        rw [List.length_drop]
        omega
      rw [measured_item (by rw [List.length_take]; omega) (by rw [hhead, hm])
        (by rw [List.length_take]; omega), hitem, List.drop_take, hused]
      rfl

/-- Reading an item further leaves it measured as it was. -/
theorem bind_measured (f : α → Except WireError β) :
    (measured header measure read buffer).bind f =
      measured header measure (fun bytes => read bytes >>= f) buffer := by
  unfold measured
  split
  · rfl
  · cases measure (buffer.take header) with
    | error e => rfl
    | ok length =>
      dsimp only
      split
      · rfl
      · unfold item bind
        cases read (buffer.take length) <;> rfl

end Measured

/-- Bytes are used whenever there is an answer. -/
theorem Local.used_pos {header : Nat} {take : Bytes → Taken α} (h : Local header take)
    (buffer rest : Bytes) : 0 < used header buffer rest := by
  have hpos := h.header_pos
  unfold used
  split <;> omega

theorem used_of_lt (header : Nat) {buffer rest : Bytes} (h : rest.length < buffer.length) :
    used header buffer rest = buffer.length - rest.length := if_pos h

/-- Only bytes that are there are used. -/
theorem Local.used_le {header : Nat} {take : Bytes → Taken α} (h : Local header take)
    {buffer rest : Bytes} {answer : Except WireError (Option α)}
    (htake : take buffer = ⟨answer, rest⟩) (answered : answer ≠ .ok none) :
    used header buffer rest ≤ buffer.length := by
  refine Nat.not_lt.1 fun hlt => ?_
  have hwait := h.early htake answered buffer.length hlt
  rw [List.take_length, htake] at hwait
  cases hwait
  exact answered rfl

/-- If more bytes are needed, they are needed for fewer bytes as well. -/
theorem Local.take_incomplete {header : Nat} {take : Bytes → Taken α} (h : Local header take)
    {buffer rest : Bytes} (htake : take buffer = ⟨.ok none, rest⟩) (n : Nat) :
    ∃ rest', take (buffer.take n) = ⟨.ok none, rest'⟩ := by
  cases hprefix : take (buffer.take n) with
  | mk answer rest' =>
    by_cases answered : answer = .ok none
    · exact ⟨rest', by rw [answered]⟩
    · have happend := h.append hprefix answered (buffer.drop n)
      rw [List.take_append_drop, htake] at happend
      cases happend
      exact absurd rfl answered

/-- Induction over the items of a stream: it holds none that is whole, or the next one is refused,
or the next one is there and a shorter stream comes behind it. -/
theorem stream_induction {take : Bytes → Taken α}
    (shorter : ∀ stream rest a, take stream = ⟨.ok (some a), rest⟩ → rest.length < stream.length)
    {motive : Bytes → Prop}
    (incomplete : ∀ stream rest, take stream = ⟨.ok none, rest⟩ → motive stream)
    (refused : ∀ stream rest e, take stream = ⟨.error e, rest⟩ → motive stream)
    (item : ∀ stream rest a, take stream = ⟨.ok (some a), rest⟩ → motive rest → motive stream)
    (stream : Bytes) : motive stream := by
  induction hn : stream.length using Nat.strongRecOn generalizing stream with
  | _ n ih =>
    cases htake : take stream with
    | mk answer rest =>
      rcases answer with e | _ | a
      · exact refused stream rest e htake
      · exact incomplete stream rest htake
      · have hlt := shorter stream rest a htake
        exact item stream rest a htake (ih rest.length (by omega) rest rfl)

end Taken

/-! ## The items of the wire -/

namespace Wire.Frame

/-- The tag and the length field. -/
def headerLength : Nat := 5

/-- The length of a whole frame, from its tag and its length field. -/
def measure (origin : Origin) (limit : Nat) (head : Bytes) : Except WireError Nat :=
  match head with
  | tag :: field =>
    let declared := (UInt32.ofNat (number field)).toInt32
    if declared.toInt < 4 + origin.trailer tag then .error (.protocol (.messageLength declared tag))
    else if limit < declared.toInt.toNat then .error (.tooLarge declared.toInt.toNat limit)
    else .ok (1 + declared.toInt.toNat)
  | [] => .ok headerLength

/-- Reads a whole frame. -/
def read (origin : Origin) (bytes : Bytes) : Except WireError Frame :=
  match bytes with
  | tag :: rest => withoutTrailer (origin.trailer tag) tag (rest.drop 4)
  | [] => .error .closed

theorem headerLength_le_measure {origin : Origin} {limit : Nat} (head : Bytes) (length : Nat)
    (h : measure origin limit head = .ok length) : headerLength ≤ length := by
  unfold measure at h
  split at h
  · dsimp only at h
    split at h
    · cases h
    · split at h
      · cases h
      · cases h
        unfold headerLength
        omega
  · cases h
    exact Nat.le_refl _

theorem take_eq_measured (origin : Origin) (limit : Nat) :
    take origin limit = Taken.measured headerLength (measure origin limit) (read origin) := by
  funext buffer
  unfold take
  split
  · next tag a b c d body =>
    have hhead : [tag, a, b, c, d].length = headerLength := rfl
    show _ = Taken.measured headerLength _ _ ([tag, a, b, c, d] ++ body)
    rw [Taken.measured_header hhead, measure]
    dsimp only
    generalize (UInt32.ofNat (number [a, b, c, d])).toInt32 = declared
    by_cases hleast : declared.toInt < 4 + origin.trailer tag
    · rw [if_pos hleast, if_pos hleast]
      rfl
    by_cases hlimit : limit < declared.toInt.toNat
    · rw [if_neg hleast, if_neg hleast, if_pos hlimit, if_pos hlimit]
      rfl
    rw [if_neg hleast, if_neg hleast, if_neg hlimit, if_neg hlimit]
    obtain ⟨k, hk⟩ : ∃ k, declared.toInt.toNat = k + 4 := ⟨declared.toInt.toNat - 4, by omega⟩
    rw [hk, Nat.add_sub_cancel, show 1 + (k + 4) = k + headerLength from Nat.add_comm 1 (k + 4)]
    simp only [Nat.add_lt_add_iff_right]
    rfl
  · next hshort =>
    refine (Taken.measured_short ?_).symm
    match buffer, hshort with
    | [], _ | [_], _ | [_, _], _ | [_, _, _], _ | [_, _, _, _], _ => simp [headerLength]
    | tag :: a :: b :: c :: d :: body, hshort => exact absurd rfl (hshort tag a b c d body)

end Wire.Frame

namespace Startup

open Wire

/-- The length field. -/
def headerLength : Nat := 4

/-- The length of a whole packet, from its length field. -/
def measure (limit : Nat) (head : Bytes) : Except WireError Nat :=
  let declared := (UInt32.ofNat (number head)).toInt32
  if declared.toInt < 8 then .error (.protocol (.packetLength declared))
  else if limit < declared.toInt.toNat then .error (.tooLarge declared.toInt.toNat limit)
  else .ok declared.toInt.toNat

/-- Reads a whole packet. -/
def read (packet : Bytes) : Except WireError Startup := ofBody (packet.drop 4)

theorem headerLength_le_measure {limit : Nat} (head : Bytes) (length : Nat)
    (h : measure limit head = .ok length) : headerLength ≤ length := by
  unfold measure at h
  dsimp only at h
  split at h
  · cases h
  · split at h
    · cases h
    · cases h
      unfold headerLength
      omega

theorem take_eq_measured (limit : Nat) :
    take limit = Taken.measured headerLength (measure limit) read := by
  funext buffer
  unfold take
  split
  · next a b c d body =>
    have hhead : [a, b, c, d].length = headerLength := rfl
    show _ = Taken.measured headerLength _ _ ([a, b, c, d] ++ body)
    rw [Taken.measured_header hhead, measure]
    dsimp only
    generalize (UInt32.ofNat (number [a, b, c, d])).toInt32 = declared
    by_cases hleast : declared.toInt < 8
    · rw [if_pos hleast, if_pos hleast]
      rfl
    by_cases hlimit : limit < declared.toInt.toNat
    · rw [if_neg hleast, if_neg hleast, if_pos hlimit, if_pos hlimit]
      rfl
    rw [if_neg hleast, if_neg hleast, if_neg hlimit, if_neg hlimit]
    obtain ⟨k, hk⟩ : ∃ k, declared.toInt.toNat = k + 4 := ⟨declared.toInt.toNat - 4, by omega⟩
    rw [hk, Nat.add_sub_cancel]
    rfl
  · next hshort =>
    refine (Taken.measured_short ?_).symm
    match buffer, hshort with
    | [], _ | [_], _ | [_, _], _ | [_, _, _], _ => simp [headerLength]
    | a :: b :: c :: d :: body, hshort => exact absurd rfl (hshort a b c d body)

theorem take_local (limit : Nat) : Taken.Local headerLength (take limit) := by
  rw [take_eq_measured]
  exact Taken.measured_local (by decide) headerLength_le_measure

/-- Induction over the packets of a stream. -/
theorem stream_induction (limit : Nat) {motive : Bytes → Prop}
    (incomplete : ∀ stream rest, take limit stream = ⟨.ok none, rest⟩ → motive stream)
    (refused : ∀ stream rest e, take limit stream = ⟨.error e, rest⟩ → motive stream)
    (item : ∀ stream rest request, take limit stream = ⟨.ok (some request), rest⟩ →
      motive rest → motive stream)
    (stream : Bytes) : motive stream :=
  Taken.stream_induction (fun _ _ _ => take_length_lt) incomplete refused item stream

end Startup

namespace Frontend

open Wire

theorem take_eq_measured (limit : Nat) : take limit =
    Taken.measured Frame.headerLength (Frame.measure .frontend limit)
      (fun bytes => Frame.read .frontend bytes >>= fun f => .ok (ofFrame f)) := by
  funext buffer
  rw [take, Frame.take_eq_measured, Taken.bind_measured]

theorem take_local (limit : Nat) : Taken.Local Frame.headerLength (take limit) := by
  rw [take_eq_measured]
  exact Taken.measured_local (by decide) Frame.headerLength_le_measure

/-- Induction over the messages of a stream. -/
theorem stream_induction (limit : Nat) {motive : Bytes → Prop}
    (incomplete : ∀ stream rest, take limit stream = ⟨.ok none, rest⟩ → motive stream)
    (refused : ∀ stream rest e, take limit stream = ⟨.error e, rest⟩ → motive stream)
    (item : ∀ stream rest message, take limit stream = ⟨.ok (some message), rest⟩ →
      motive rest → motive stream)
    (stream : Bytes) : motive stream :=
  Taken.stream_induction (fun _ _ _ => take_length_lt) incomplete refused item stream

end Frontend

end PgGateway
