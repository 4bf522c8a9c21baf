import PgGateway.Proofs.Wire.Accepted

/-!
# Taking is all or nothing

A buffer loses a whole item or no byte at all. Which of the two, and whether more bytes are asked
for, is told by the header alone (`Taken.AllOrNothing`): as long as it is not there, or is
acceptable and its item is not there, more bytes are asked for; if it is not acceptable the buffer
stays as it is; and otherwise the item is gone, whether a message was read from it or not. It is
proved once, for measured items, and holds of everything that is taken off a buffer.
-/

namespace PgGateway

open Wire

/-- The header of an item is at fault: it declares a length that is not allowed. -/
def WireError.OfHeader : WireError → Prop
  | protocol (.messageLength _ _) | protocol (.packetLength _) | tooLarge _ _ => True
  | _ => False

/-- No failure is of the header and of the item behind it. -/
theorem WireError.OfHeader.not_ofItem {e : WireError} (h : e.OfHeader) : ¬e.OfItem := by
  unfold OfHeader at h
  split at h
  · exact id
  · exact id
  · exact id
  · cases h

namespace Taken

/-- The header of an item: its length field, of four bytes, and the bytes in front of it, which the
field does not count. The least length that may be declared can depend on these. -/
structure Header where
  before : Nat
  least : Bytes → Nat

namespace Header

/-- The number of bytes of the header. -/
def length (h : Header) : Nat := h.before + 4

/-- What the length field of a buffer declares. -/
def declared (h : Header) (buffer : Bytes) : Int :=
  (UInt32.ofNat (number ((buffer.drop h.before).take 4))).toInt32.toInt

/-- The length that a buffer declares is allowed. -/
def Acceptable (h : Header) (limit : Nat) (buffer : Bytes) : Prop :=
  h.least buffer ≤ h.declared buffer ∧ h.declared buffer ≤ limit

/-- The number of bytes of the whole item. -/
def whole (h : Header) (buffer : Bytes) : Nat := h.before + (h.declared buffer).toNat

/-- The header is acceptable, and exactly its item is gone from the front of the buffer. -/
def Removed (h : Header) (limit : Nat) (buffer rest : Bytes) : Prop :=
  h.Acceptable limit buffer ∧ ∃ item, item.length = h.whole buffer ∧ buffer = item ++ rest

/-- What the header of a buffer can be measured as. -/
inductive Measured (h : Header) (limit : Nat) (buffer : Bytes) : Except WireError Nat → Prop
  | short {v : Violation} (hshort : h.declared buffer < h.least buffer)
      (hv : (WireError.protocol v).OfHeader) : Measured h limit buffer (.error (.protocol v))
  | long (hlong : limit < h.declared buffer) :
      Measured h limit buffer (.error (.tooLarge (h.declared buffer).toNat limit))
  | whole (acceptable : h.Acceptable limit buffer) : Measured h limit buffer (.ok (h.whole buffer))

end Header

variable {α : Type}

/-- **All or nothing.** The buffer loses exactly one item or nothing, more bytes are asked for
exactly when the header or the item that it declares is not there yet, and what follows an item
changes nothing. -/
structure AllOrNothing (h : Header) (limit : Nat) (take : Bytes → Taken α) : Prop where
  waits_iff : ∀ buffer, (take buffer).answer = .ok none ↔
    buffer.length < h.length ∨ h.Acceptable limit buffer ∧ buffer.length < h.whole buffer
  waits : ∀ buffer, (take buffer).answer = .ok none → (take buffer).rest = buffer
  given : ∀ buffer a, (take buffer).answer = .ok (some a) →
    h.Removed limit buffer (take buffer).rest
  failed : ∀ buffer e, (take buffer).answer = .error e → e.OfHeader ∨ e.OfItem
  /-- A header at fault stays on the buffer. -/
  refused : ∀ buffer e, (take buffer).answer = .error e → e.OfHeader →
    ¬h.Acceptable limit buffer ∧ (take buffer).rest = buffer
  /-- An item that cannot be read is gone like any other. -/
  unread : ∀ buffer e, (take buffer).answer = .error e → e.OfItem →
    h.Removed limit buffer (take buffer).rest
  /-- What is within the limit is never too large. -/
  allowed : ∀ buffer, h.declared buffer ≤ limit →
    ∀ length limit', (take buffer).answer ≠ .error (.tooLarge length limit')
  append : ∀ buffer more, (take buffer).answer ≠ .ok none →
    take (buffer ++ more) = ⟨(take buffer).answer, (take buffer).rest ++ more⟩

section Measured

variable {h : Header} {limit : Nat} {measure : Bytes → Except WireError Nat}
  {read : Bytes → Except WireError α} {buffer : Bytes}

/-- All that can come of taking a measured item. -/
inductive Outcome (h : Header) (limit : Nat) (buffer : Bytes) : Taken α → Prop
  | noHeader (hlen : buffer.length < h.length) : Outcome h limit buffer (.incomplete buffer)
  | noItem (hlen : h.length ≤ buffer.length) (acceptable : h.Acceptable limit buffer)
      (hitem : buffer.length < h.whole buffer) : Outcome h limit buffer (.incomplete buffer)
  | refused {e : WireError} (hlen : h.length ≤ buffer.length) (he : e.OfHeader)
      (acceptable : ¬h.Acceptable limit buffer)
      (hlong : ∀ length limit', e = .tooLarge length limit' → limit < h.declared buffer) :
      Outcome h limit buffer (.refused e buffer)
  | item {result : Except WireError α} (hlen : h.length ≤ buffer.length)
      (acceptable : h.Acceptable limit buffer) (hitem : h.whole buffer ≤ buffer.length)
      (hresult : ∀ e, result = .error e → e.OfItem) :
      Outcome h limit buffer (.item result (buffer.drop (h.whole buffer)))

theorem outcome_measured
    (hmeasure : h.length ≤ buffer.length → h.Measured limit buffer (measure (buffer.take h.length)))
    (hread : h.Acceptable limit buffer → h.whole buffer ≤ buffer.length →
      ∀ e, read (buffer.take (h.whole buffer)) = .error e → e.OfItem) :
    Outcome h limit buffer (measured h.length measure read buffer) := by
  by_cases hlen : buffer.length < h.length
  · rw [measured_short hlen]
    exact .noHeader hlen
  have hlen : h.length ≤ buffer.length := Nat.le_of_not_lt hlen
  have hheader := hmeasure hlen
  generalize hm : measure (buffer.take h.length) = m at hheader
  cases hheader with
  | short hshort hv =>
    rw [measured_refused hlen hm]
    exact .refused hlen hv (fun acceptable => by have := acceptable.1; omega) nofun
  | long hlong =>
    rw [measured_refused hlen hm]
    exact .refused hlen trivial (fun acceptable => by have := acceptable.2; omega) fun _ _ _ => hlong
  | whole acceptable =>
    by_cases hitem : buffer.length < h.whole buffer
    · rw [measured_long hlen hm hitem]
      exact .noItem hlen acceptable hitem
    · rw [measured_item hlen hm (Nat.le_of_not_lt hitem)]
      exact .item hlen acceptable (Nat.le_of_not_lt hitem) (hread acceptable (Nat.le_of_not_lt hitem))

namespace Outcome

variable {t : Taken α}

theorem waits_iff (o : Outcome h limit buffer t) : t.answer = .ok none ↔
    buffer.length < h.length ∨ h.Acceptable limit buffer ∧ buffer.length < h.whole buffer := by
  cases o with
  | noHeader hlen => exact iff_of_true rfl (.inl hlen)
  | noItem hlen acceptable hitem => exact iff_of_true rfl (.inr ⟨acceptable, hitem⟩)
  | refused hlen he acceptable hlong =>
    refine iff_of_false nofun ?_
    rintro (hshort | ⟨hacceptable, -⟩)
    · exact absurd hshort (Nat.not_lt.2 hlen)
    · exact acceptable hacceptable
  | @item result hlen acceptable hitem hresult =>
    refine iff_of_false (fun hanswer => ?_) ?_
    · cases result <;> cases hanswer
    · rintro (hshort | ⟨-, hlong⟩)
      · exact absurd hshort (Nat.not_lt.2 hlen)
      · exact absurd hlong (Nat.not_lt.2 hitem)

theorem waits (o : Outcome h limit buffer t) (hanswer : t.answer = .ok none) : t.rest = buffer := by
  cases o with
  | noHeader | noItem | refused => rfl
  | @item result => cases result <;> cases hanswer

theorem removed_drop (acceptable : h.Acceptable limit buffer)
    (hitem : h.whole buffer ≤ buffer.length) :
    h.Removed limit buffer (buffer.drop (h.whole buffer)) :=
  ⟨acceptable, buffer.take (h.whole buffer), List.length_take_of_le hitem,
    (List.take_append_drop _ _).symm⟩

theorem given (o : Outcome h limit buffer t) {a : α} (hanswer : t.answer = .ok (some a)) :
    h.Removed limit buffer t.rest := by
  cases o with
  | noHeader | noItem | refused => cases hanswer
  | item hlen acceptable hitem hresult => exact removed_drop acceptable hitem

theorem failed (o : Outcome h limit buffer t) {e : WireError} (hanswer : t.answer = .error e) :
    e.OfHeader ∧ ¬h.Acceptable limit buffer ∧ t.rest = buffer ∨
      e.OfItem ∧ h.Removed limit buffer t.rest := by
  cases o with
  | noHeader | noItem => cases hanswer
  | refused hlen he acceptable hlong =>
    cases hanswer
    exact .inl ⟨he, acceptable, rfl⟩
  | @item result hlen acceptable hitem hresult =>
    cases result with
    | ok a => cases hanswer
    | error e' =>
      cases hanswer
      exact .inr ⟨hresult e rfl, removed_drop acceptable hitem⟩

theorem refused_header (o : Outcome h limit buffer t) {e : WireError}
    (hanswer : t.answer = .error e) (he : e.OfHeader) :
    ¬h.Acceptable limit buffer ∧ t.rest = buffer := by
  rcases o.failed hanswer with ⟨-, hrefused⟩ | ⟨hitem, -⟩
  · exact hrefused
  · exact absurd hitem he.not_ofItem

theorem removed_unread (o : Outcome h limit buffer t) {e : WireError}
    (hanswer : t.answer = .error e) (he : e.OfItem) : h.Removed limit buffer t.rest := by
  rcases o.failed hanswer with ⟨hheader, -⟩ | ⟨-, hremoved⟩
  · exact absurd he hheader.not_ofItem
  · exact hremoved

theorem allowed (o : Outcome h limit buffer t) (hallowed : h.declared buffer ≤ limit)
    (length limit' : Nat) : t.answer ≠ .error (.tooLarge length limit') := by
  intro hanswer
  cases o with
  | noHeader | noItem => cases hanswer
  | refused hlen he acceptable hlong =>
    cases hanswer
    exact absurd (hlong length limit' rfl) (Int.not_lt.2 hallowed)
  | @item result hlen acceptable hitem hresult =>
    cases result with
    | ok a => cases hanswer
    | error e' =>
      cases hanswer
      exact (hresult _ rfl).elim

end Outcome

/-- **Measured items are taken all or nothing.** -/
theorem measured_allOrNothing (hlocal : Local h.length (measured h.length measure read))
    (hmeasure : ∀ buffer, h.length ≤ buffer.length →
      h.Measured limit buffer (measure (buffer.take h.length)))
    (hread : ∀ buffer, h.Acceptable limit buffer → h.whole buffer ≤ buffer.length →
      ∀ e, read (buffer.take (h.whole buffer)) = .error e → e.OfItem) :
    AllOrNothing h limit (measured h.length measure read) := by
  have houtcome : ∀ buffer, Outcome h limit buffer (measured h.length measure read buffer) :=
    fun buffer => outcome_measured (hmeasure buffer) (hread buffer)
  exact {
    waits_iff := fun buffer => (houtcome buffer).waits_iff
    waits := fun buffer => (houtcome buffer).waits
    given := fun buffer _ => (houtcome buffer).given
    failed := fun buffer _ hanswer => ((houtcome buffer).failed hanswer).imp And.left And.left
    refused := fun buffer _ => (houtcome buffer).refused_header
    unread := fun buffer _ => (houtcome buffer).removed_unread
    allowed := fun buffer => (houtcome buffer).allowed
    append := fun buffer more answered => hlocal.append rfl answered more }

end Measured

theorem bind_ok (t : Taken α) : t.bind .ok = t := by
  obtain ⟨answer, rest⟩ := t
  rcases answer with e | _ | a <;> rfl

end Taken

/-! ## Frames and the messages in them -/

namespace Wire.Frame

/-- A tag is in front of the length field, which counts itself and the trailer. -/
def header (origin : Origin) : Taken.Header where
  before := 1
  least
    | tag :: _ => 4 + origin.trailer tag
    | [] => 4

theorem measured_header (origin : Origin) (limit : Nat) (buffer : Bytes)
    (hlen : headerLength ≤ buffer.length) :
    (header origin).Measured limit buffer (measure origin limit (buffer.take headerLength)) := by
  match buffer, hlen with
  | tag :: body, hlen =>
    have hdeclared : (UInt32.ofNat (number (body.take 4))).toInt32.toInt =
        (header origin).declared (tag :: body) := rfl
    have hleast : 4 + origin.trailer tag = (header origin).least (tag :: body) := rfl
    show (header origin).Measured limit (tag :: body) (measure origin limit (tag :: body.take 4))
    unfold measure
    dsimp only
    split
    · next hshort => exact .short (by omega) trivial
    · split
      · next hlong =>
        rw [hdeclared] at hlong ⊢
        exact .long (by omega)
      · exact .whole ⟨by omega, by omega⟩

/-- A frame that is there is refused for its trailer only. -/
theorem ofItem_of_read {origin : Origin} {bytes : Bytes} {e : WireError} (hne : bytes ≠ [])
    (h : read origin bytes = .error e) : e.OfItem := by
  match bytes with
  | tag :: body =>
    unfold read withoutTrailer at h
    dsimp only at h
    split at h
    · cases h
    · split at h <;> cases h
      trivial

/-- Whatever is read from a frame is taken all or nothing, if the reading fails for the item only. -/
theorem allOrNothing_bind {α : Type} (origin : Origin) (limit : Nat)
    {f : Frame → Except WireError α} (hf : ∀ frame e, f frame = .error e → e.OfItem) :
    Taken.AllOrNothing (header origin) limit fun buffer => (take origin limit buffer).bind f := by
  have hmeasured : (fun buffer => (take origin limit buffer).bind f) =
      Taken.measured headerLength (measure origin limit) fun bytes => read origin bytes >>= f := by
    funext buffer
    rw [take_eq_measured, Taken.bind_measured]
  rw [hmeasured]
  refine Taken.measured_allOrNothing (h := header origin)
    (Taken.measured_local (Nat.zero_lt_succ _) headerLength_le_measure)
    (measured_header origin limit) ?_
  intro buffer acceptable hitem e he
  cases hread : read origin (buffer.take ((header origin).whole buffer)) with
  | error e' =>
    rw [hread] at he
    cases he
    refine ofItem_of_read (fun hnil => ?_) hread
    have hlength := congrArg List.length hnil
    rw [List.length_take_of_le hitem] at hlength
    cases (Nat.add_eq_zero_iff.1 hlength).1
  | ok frame =>
    rw [hread] at he
    exact hf frame e he

end Wire.Frame

/-! ## Packets of startup -/

namespace Startup

/-- Nothing is in front of the length field, and a packet holds its version number at least. -/
def header : Taken.Header where
  before := 0
  least _ := 8

theorem measured_header (limit : Nat) (buffer : Bytes) :
    header.Measured limit buffer (measure limit (buffer.take headerLength)) := by
  have hdeclared : (UInt32.ofNat (number (buffer.take 4))).toInt32.toInt =
      header.declared buffer := rfl
  have hleast : header.least buffer = 8 := rfl
  have hwhole : header.whole buffer = (header.declared buffer).toNat := Nat.zero_add _
  unfold measure headerLength
  dsimp only
  split
  · next hshort => exact .short (by omega) trivial
  · split
    · next hlong =>
      rw [hdeclared] at hlong ⊢
      exact .long (by omega)
    · rw [hdeclared, ← hwhole]
      exact .whole ⟨by omega, by omega⟩

theorem take_allOrNothing (limit : Nat) : Taken.AllOrNothing header limit (take limit) := by
  have hlocal := take_local limit
  rw [take_eq_measured] at hlocal ⊢
  refine Taken.measured_allOrNothing hlocal (fun buffer _ => measured_header limit buffer) ?_
  intro buffer acceptable hitem e he
  refine (sound_ofBody ?_).2 e he
  have hleast : (8 : Int) ≤ header.declared buffer := acceptable.1
  have hwhole : header.whole buffer = (header.declared buffer).toNat := Nat.zero_add _
  rw [List.length_drop, List.length_take_of_le hitem]
  omega

end Startup

/-! ## All that is taken off a buffer -/

/-- **Taking is all or nothing**, whatever the buffer and the limit: for frames from either side, for
the messages in them, and for packets of startup. Messages of the server have no limit but the
greatest length that can be declared, so none of them is too large. -/
theorem takers_allOrNothing (limit : Nat) :
    (∀ origin, Taken.AllOrNothing (Frame.header origin) limit (Frame.take origin limit)) ∧
      Taken.AllOrNothing (Frame.header .frontend) limit (Frontend.take limit) ∧
      Taken.AllOrNothing Startup.header limit (Startup.take limit) ∧
      Taken.AllOrNothing (Frame.header .backend) 0x7FFFFFFF Backend.take ∧
      ∀ buffer length limit', (Backend.take buffer).answer ≠ .error (.tooLarge length limit') := by
  have hserver : Taken.AllOrNothing (Frame.header .backend) 0x7FFFFFFF Backend.take :=
    Frame.allOrNothing_bind .backend _ fun frame => (Backend.sound_ofFrame frame).2
  refine ⟨fun origin => ?_, ?_, Startup.take_allOrNothing limit, hserver, fun buffer => ?_⟩
  · have hframe := Frame.allOrNothing_bind (f := .ok) origin limit nofun
    simpa only [Taken.bind_ok] using hframe
  · exact Frame.allOrNothing_bind .frontend limit nofun
  · exact hserver.allowed buffer (Int.le_of_lt_add_one (Int32.toInt_lt _))

end PgGateway
