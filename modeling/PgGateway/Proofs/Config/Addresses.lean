import PgGateway.Config
import PgGateway.Proofs.Text.Numbers

/-!
# Addresses are read as they are written

What an address says is told from its two ends: the authority ends at the first slash, and the port
begins at the last colon of the authority (`Config.Addresses`, `Config.Names`). An address is read
exactly when it has such parts, and then it means what they say (`Config.ofUrl_eq_ok_iff`). So a
host, a port and a path come back from the address that is written with them, whatever colons the
host holds and whatever slashes and colons the path does (`Config.addresses_read_back`).
-/

namespace PgGateway

open Text

variable {t authority path host portText : Text} {port : UInt16}

/-! ## Ports -/

namespace Numeral

/-- The text writes the port: at least one decimal digit, perhaps after a plus sign, and the number
that the digits denote is that of the port. -/
def WritesPort (t : Text) (port : UInt16) : Prop :=
  ∃ digits, (t = digits ∨ t = '+' :: digits) ∧ IsDigits digits ∧
    Nat.ofDigitChars 10 digits 0 = port.toNat

/-- A port is written with digits only, behind a sign. -/
theorem WritesPort.not_mem {c : Char} (h : WritesPort t port) (hdigit : c.isDigit = false)
    (hsign : c ≠ '+') : c ∉ t := by
  obtain ⟨digits, rfl | rfl, hdigits, -⟩ := h
  · exact not_mem_of_isDigits hdigits.2 hdigit
  · exact List.not_mem_cons_of_ne_of_not_mem hsign (not_mem_of_isDigits hdigits.2 hdigit)

theorem writesPort_ofNat (port : UInt16) : WritesPort (ofNat port.toNat) port :=
  ⟨_, .inl rfl, isDigits_ofNat _, Nat.ofDigitChars_ten_toDigits⟩

/-- The digits of a port text, without the sign in front of them. -/
def portDigits (t : Text) : Text :=
  match t with
  | '+' :: digits => digits
  | _ => t

theorem portDigits_of_isDigits (h : IsDigits t) : portDigits t = t := by
  unfold portDigits
  split
  · exact absurd List.mem_cons_self (not_mem_of_isDigits h.2 rfl)
  · rfl

theorem eq_portDigits_or (t : Text) : t = portDigits t ∨ t = '+' :: portDigits t := by
  unfold portDigits
  split
  · exact .inr rfl
  · exact .inl rfl

theorem writesPort_iff : WritesPort t port ↔
    IsDigits (portDigits t) ∧ Nat.ofDigitChars 10 (portDigits t) 0 = port.toNat := by
  constructor
  · rintro ⟨digits, rfl | rfl, hdigits, hvalue⟩
    · rw [portDigits_of_isDigits hdigits]
      exact ⟨hdigits, hvalue⟩
    · exact ⟨hdigits, hvalue⟩
  · rintro ⟨hdigits, hvalue⟩
    exact ⟨_, eq_portDigits_or t, hdigits, hvalue⟩

/-- **Ports.** Exactly the texts that write a port are read as it. -/
theorem port?_eq_some_iff : port? t = some port ↔ WritesPort t port := by
  have hread : port? t = if (!(portDigits t).isEmpty && (portDigits t).all Char.isDigit &&
      decide (Nat.ofDigitChars 10 (portDigits t) 0 < 65536)) = true then
      some (UInt16.ofNat (Nat.ofDigitChars 10 (portDigits t) 0)) else none := rfl
  have hdigits : (!(portDigits t).isEmpty && (portDigits t).all Char.isDigit) = true ↔
      IsDigits (portDigits t) := by
    simp [IsDigits]
  rw [writesPort_iff, hread, Option.ite_none_right_eq_some, Bool.and_eq_true, hdigits,
    decide_eq_true_eq, and_assoc, Option.some_inj]
  refine and_congr_right fun _ => ⟨?_, fun hvalue => ?_⟩
  · rintro ⟨hlt, rfl⟩
    exact (UInt16.toNat_ofNat_of_lt' hlt).symm
  · rw [hvalue]
    exact ⟨port.toNat_lt, UInt16.ofNat_toNat⟩

end Numeral

namespace Config

open Numeral

/-! ## The parts of an address -/

/-- The address is the scheme, an authority without a slash, and behind the next slash a path; if
there is none, the path is empty. -/
def Addresses (url authority path : Text) : Prop :=
  '/' ∉ authority ∧
    (url = scheme ++ authority ∧ path = [] ∨ url = scheme ++ authority ++ '/' :: path)

/-- The authority names a host and a port, or leaves one or both to the defaults. A port holds no
colon, so the one in front of it is the last. -/
inductive Names : Text → Text → UInt16 → Prop
  | nothing : Names [] "localhost" 5432
  | host {host : Text} (hsome : host ≠ []) (hcolon : ':' ∉ host) : Names host host 5432
  | both {host portText : Text} {port : UInt16} (hsome : host ≠ [])
    (hport : WritesPort portText port) : Names (host ++ ':' :: portText) host port

theorem not_mem_takeWhile (c : Char) (t : Text) : c ∉ t.takeWhile (· != c) := by
  intro h
  simpa using List.mem_takeWhile_imp h

/-- A text that holds a character is parted at the first one of it. -/
theorem eq_append_of_mem {c : Char} (h : c ∈ t) :
    t = t.takeWhile (· != c) ++ c :: (t.dropWhile (· != c)).drop 1 := by
  induction t with
  | nil => cases h
  | cons d t ih =>
    by_cases hd : d = c
    · rw [hd]
      simp
    · have hbefore : (d != c) = true := bne_iff_ne.2 hd
      rw [List.takeWhile_cons_of_pos (p := (· != c)) hbefore,
        List.dropWhile_cons_of_pos (p := (· != c)) hbefore, List.cons_append,
        ← ih (List.mem_of_ne_of_mem (Ne.symm hd) h)]

theorem takeWhile_of_not_mem {c : Char} (h : c ∉ t) :
    t.takeWhile (· != c) = t ∧ t.dropWhile (· != c) = [] := by
  have hall : ∀ d ∈ t, (d != c) = true := fun d hd => bne_iff_ne.2 fun hdc => h (hdc ▸ hd)
  exact ⟨List.takeWhile_eq_self_iff.2 hall, List.dropWhile_eq_nil_iff.2 hall⟩

theorem takeWhile_append_of_not_mem {c : Char} (h : c ∉ t) (rest : Text) :
    (t ++ c :: rest).takeWhile (· != c) = t ∧
      ((t ++ c :: rest).dropWhile (· != c)).drop 1 = rest := by
  have hall : ∀ d ∈ t, (d != c) = true := fun d hd => bne_iff_ne.2 fun hdc => h (hdc ▸ hd)
  rw [List.takeWhile_append_of_pos hall, List.dropWhile_append_of_pos hall]
  simp

/-- The parts of an address are those that its two scans find. -/
theorem addresses_iff {url : Text} : Addresses url authority path ↔
    scheme.isPrefixOf url = true ∧
      authority = (url.drop scheme.length).takeWhile (· != '/') ∧
      path = ((url.drop scheme.length).dropWhile (· != '/')).drop 1 := by
  constructor
  · rintro ⟨hslash, ⟨rfl, rfl⟩ | rfl⟩
    · obtain ⟨htake, hdrop⟩ := takeWhile_of_not_mem hslash
      rw [List.drop_left, htake, hdrop]
      exact ⟨List.isPrefixOf_iff_prefix.2 (List.prefix_append _ _), rfl, rfl⟩
    · obtain ⟨htake, hdrop⟩ := takeWhile_append_of_not_mem hslash path
      rw [List.append_assoc, List.drop_left, htake, hdrop]
      exact ⟨List.isPrefixOf_iff_prefix.2 (List.prefix_append _ _), rfl, rfl⟩
  · rintro ⟨hscheme, rfl, rfl⟩
    obtain ⟨rest, rfl⟩ := List.isPrefixOf_iff_prefix.1 hscheme
    rw [List.drop_left]
    refine ⟨not_mem_takeWhile '/' rest, ?_⟩
    by_cases hslash : '/' ∈ rest
    · exact .inr (by rw [List.append_assoc, ← eq_append_of_mem hslash])
    · obtain ⟨htake, hdrop⟩ := takeWhile_of_not_mem hslash
      rw [htake, hdrop]
      exact .inl ⟨rfl, rfl⟩

/-! ## Reading -/

theorem splitLastColon_append (h : ':' ∉ portText) :
    splitLastColon (host ++ ':' :: portText) = some (host, portText) := by
  obtain ⟨htake, hdrop⟩ :=
    takeWhile_append_of_not_mem (mt List.mem_reverse.1 h) host.reverse
  have hreverse : (host ++ ':' :: portText).reverse = portText.reverse ++ ':' :: host.reverse := by
    simp
  rw [splitLastColon, if_pos (by simp), hreverse, htake, hdrop, List.reverse_reverse,
    List.reverse_reverse]

/-- The text is split at its last colon, if it holds one. -/
theorem eq_of_splitLastColon (h : splitLastColon t = some (host, portText)) :
    t = host ++ ':' :: portText := by
  rw [splitLastColon, Option.ite_none_right_eq_some, List.contains_iff_mem] at h
  obtain ⟨hcolon, hparts⟩ := h
  obtain ⟨rfl, rfl⟩ := Prod.mk.inj (Option.some.inj hparts)
  have hsplit := congrArg List.reverse (eq_append_of_mem (List.mem_reverse.2 hcolon))
  simpa using hsplit

theorem splitLastColon_eq_none_iff : splitLastColon t = none ↔ ':' ∉ t := by
  simp [splitLastColon]

/-- **Authorities.** Exactly those that name a host and a port are read, and as these. -/
theorem readAuthority_eq_ok_iff {c : Config} {path : Text} :
    readAuthority authority { database := path } = .ok c ↔
      ∃ host port, Names authority host port ∧ c = { host, port, database := path } := by
  constructor
  · intro h
    unfold readAuthority at h
    split at h
    · next host portText hsplit =>
      obtain rfl := eq_of_splitLastColon hsplit
      split at h
      · cases h
      · next port hport =>
        split at h
        · cases h
        · next hsome =>
          cases h
          exact ⟨host, port, .both (fun hnil => hsome (List.isEmpty_iff.2 hnil))
            (port?_eq_some_iff.1 hport), rfl⟩
    · next hsplit =>
      split at h
      · next hempty =>
        cases h
        rw [List.isEmpty_iff.1 hempty]
        exact ⟨_, _, .nothing, rfl⟩
      · next hsome =>
        cases h
        exact ⟨authority, _, .host (fun hnil => hsome (List.isEmpty_iff.2 hnil))
          (splitLastColon_eq_none_iff.1 hsplit), rfl⟩
  · rintro ⟨host, port, hnames, rfl⟩
    cases hnames with
    | nothing => rfl
    | host hsome hcolon =>
      rw [readAuthority, splitLastColon_eq_none_iff.2 hcolon]
      simp [hsome]
    | both hsome hport =>
      rw [readAuthority, splitLastColon_append (hport.not_mem rfl (by decide))]
      simp [port?_eq_some_iff.2 hport, hsome]

/-- What an address without a path and one with it name as the file of the database. -/
def databaseAt (path : Text) : Text := if path = [] then memory else path

theorem ofUrl_eq (url : Text) : ofUrl url = if scheme.isPrefixOf url then
    readAuthority ((url.drop scheme.length).takeWhile (· != '/'))
      { database := databaseAt (((url.drop scheme.length).dropWhile (· != '/')).drop 1) }
    else .error (.unknownScheme url) := by
  unfold ofUrl databaseAt
  dsimp only
  simp only [List.isEmpty_iff, apply_ite (fun path : Text => ({ database := path } : Config))]
  rfl

/-- **Addresses are read as they are written.** An address is read exactly when it is the scheme, an
authority up to the first slash or the end that is empty, names a host without a colon, or names a
host and a port around its last colon, and a path. It means that host, that port and that path, or
what stands for them by default, and everything else is the default. So for every host without a
slash, every port and every path, the address that is written with them is read as them. -/
theorem addresses_read_back :
    (∀ url c, ofUrl url = .ok c ↔ ∃ authority path host port, Addresses url authority path ∧
      Names authority host port ∧
      c = { host, port, database := if path = [] then ":memory:".toList else path }) ∧
    ∀ (host : Text) (port : UInt16) (path : Text), host ≠ [] → '/' ∉ host →
      ∃ c, ofUrl (scheme ++ host ++ ":" ++ Numeral.ofNat port.toNat ++ "/" ++ path) = .ok c ∧
        c.host = host ∧ c.port = port ∧
        c.listenAddress = host ++ ":" ++ Numeral.ofNat port.toNat ∧
        (path ≠ [] → c.database = path) := by
  have hread : ∀ url c, ofUrl url = .ok c ↔ ∃ authority path host port,
      Addresses url authority path ∧ Names authority host port ∧
      c = { host, port, database := databaseAt path } := by
    intro url c
    rw [ofUrl_eq]
    constructor
    · intro h
      split at h
      · next hscheme =>
        obtain ⟨host, port, hnames, rfl⟩ := readAuthority_eq_ok_iff.1 h
        exact ⟨_, _, host, port, addresses_iff.2 ⟨hscheme, rfl, rfl⟩, hnames, rfl⟩
      · cases h
    · rintro ⟨authority, path, host, port, haddresses, hnames, rfl⟩
      obtain ⟨hscheme, rfl, rfl⟩ := addresses_iff.1 haddresses
      rw [if_pos hscheme]
      exact readAuthority_eq_ok_iff.2 ⟨host, port, hnames, rfl⟩
  refine ⟨hread, fun host port path hsome hslash => ?_⟩
  have hport := writesPort_ofNat port
  have hauthority : '/' ∉ host ++ ':' :: Numeral.ofNat port.toNat := by
    rw [List.mem_append, List.mem_cons]
    rintro (h | h | h)
    · exact hslash h
    · cases h
    · exact hport.not_mem rfl (by decide) h
  refine ⟨_, (hread _ _).2 ⟨_, path, host, port, ⟨hauthority, .inr ?_⟩, .both hsome hport, rfl⟩,
    rfl, rfl, rfl, fun hpath => if_neg hpath⟩
  simp

/-- A host full of colons, the greatest port, and a path that looks like another address. -/
theorem addresses_read_back_colons :
    ∃ c, ofUrl "pgmimic://::1:65535//db:1/a.sqlite" = .ok c ∧ c.host = ("::1" : Text) ∧
      c.port = 65535 ∧ c.listenAddress = ("::1:65535" : Text) ∧
      c.database = ("/db:1/a.sqlite" : Text) := by
  obtain ⟨c, hread, hhost, hport, hlisten, hpath⟩ :=
    addresses_read_back.2 "::1" 65535 "/db:1/a.sqlite" (by decide) (by decide)
  exact ⟨c, hread, hhost, hport, hlisten, hpath (by decide)⟩

end Config

end PgGateway
