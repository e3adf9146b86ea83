/-
Endpoints and their addresses.

What names an endpoint is told by one equivalence (`parse_eq_ok_iff`): behind the blanks and the
scheme there is, up to the first slash, a host and a port with a colon between them. So a host is
never empty and has no slash in it, and that is all that is known of it; colons, blanks and even
schemes may occur.

It is enough for the addresses of the two channels. They begin with a scheme, the first slash behind
it is the one behind the port, and the last colon before that slash is the one before the port,
since a port has no colon.

There is one thing to watch. An address is trimmed before it is read, and a host may begin or end
with a blank. But the scheme stands before the host, so nothing is lost at the front, and whatever
is trimmed off the end is behind the slash that ends the port (`Text.exists_trim_append`).
-/
import DebugBridge.Proofs.Target
import DebugBridge.Proofs.Text.Numerals

namespace DebugBridge

namespace Text

/-- What is trimmed off a text that ends plainly is trimmed off what follows it. -/
theorem exists_trim_append {c last : Char} (hfirst : isBlank c = false)
    (hlast : isBlank last = false) (cs after : List Char) :
    ∃ kept, trim (c :: cs ++ last :: after) = c :: cs ++ last :: kept := by
  have hback :
      (c :: cs ++ last :: after).reverse = after.reverse ++ (last :: (c :: cs).reverse) := by
    simp
  have hstart : (c :: cs ++ last :: after).dropWhile isBlank = c :: cs ++ last :: after := by
    rw [List.cons_append, List.dropWhile_cons_of_neg (by simp [hfirst])]
  have hstop : (last :: (c :: cs).reverse).dropWhile isBlank = last :: (c :: cs).reverse :=
    List.dropWhile_cons_of_neg (by simp [hlast])
  rw [trim, hstart, hback, List.dropWhile_append, hstop]
  split
  · exact ⟨[], by simp⟩
  · exact ⟨(after.reverse.dropWhile isBlank).reverse, by simp⟩

end Text

namespace Endpoint

/-! ### Reading

The reader looks for one thing after the other, each in what the last one left. The equivalence says
what all of them found, in terms of texts put together.
-/

/-- **What names an endpoint.** Nothing is said of how a host looks, except that it is there: it is
what stands before the last colon of the address. -/
theorem parse_eq_ok_iff {input : String} {e : Endpoint} :
    parse input = .ok e ↔ ∃ rest port,
      splitScheme (Text.trim input.toList) = (e.secure, rest) ∧
        authority rest = e.host.toList ++ ':' :: port ∧ e.host ≠ "" ∧
        Text.IsNumeral port e.port.toNat := by
  cases hscheme : splitScheme (Text.trim input.toList) with
  | mk secure rest =>
      constructor
      · intro h
        rw [parse, hscheme] at h
        dsimp only at h
        split at h
        · simp at h
        · simp at h
        · rename_i host port hne hsplit
          split at h
          · simp at h
          · rename_i n hread
            obtain ⟨hnumeral, hle⟩ := Text.readNat_eq_ok_iff.1 hread
            obtain rfl := Except.ok.inj h
            refine ⟨rest, port, rfl, ?_, ?_, ?_⟩
            · rw [String.toList_ofList]
              exact Text.eq_append_of_splitAtLast hsplit
            · intro hempty
              exact hne (String.ofList_eq_empty_iff.1 hempty)
            · show Text.IsNumeral port (UInt16.ofNat n).toNat
              rwa [UInt16.toNat_ofNat_of_lt' (by show n < 65536; omega)]
      · rintro ⟨rest', port, hsecure, hauthority, hhost, hnumeral⟩
        obtain ⟨rfl, rfl⟩ := Prod.mk.inj hsecure
        have hcolon : ':' ∉ port := hnumeral.notMem (by decide) (by decide)
        have hread : Text.readNat 65535 port = .ok e.port.toNat :=
          Text.readNat_of_isNumeral hnumeral (by have := e.port.toNat_lt; omega)
        have hne : e.host.toList ≠ [] := fun hnil => hhost (String.toList_inj.1 hnil)
        obtain ⟨first, more, hfirst⟩ := List.exists_cons_of_ne_nil hne
        rw [parse, hscheme]
        dsimp only
        rw [hauthority, Text.splitAtLast_append hcolon, hfirst]
        dsimp only
        rw [hread, ← hfirst]
        simp

/-! ### Addresses

An address is put together from an endpoint, so it is read by putting the same pieces into the
equivalence. What follows the slash does not matter, which is why one lemma serves the push channel
and all commands (`parse_of_address`).
-/

theorem toList_address (e : Endpoint) :
    e.address.toList = e.host.toList ++ ':' :: e.port.toNat.repr.toList := by
  simp [address, toString]

theorem pushUrl_eq (e : Endpoint) :
    e.pushUrl = (if e.secure then "wss://" else "ws://") ++ e.address ++ "/ws" := by
  have hplain : "ws" ++ "://" = "ws://" := by decide
  have hsecure : "wss" ++ "://" = "wss://" := by decide
  rw [← hplain, ← hsecure]
  cases h : e.secure <;> simp [pushUrl, h, toString]

theorem splitScheme_of_mem {scheme : String} {secure : Bool} (h : (scheme, secure) ∈ schemes)
    (rest : List Char) : splitScheme (scheme.toList ++ rest) = (secure, rest) := by
  simp only [schemes, List.mem_cons, Prod.mk.injEq, List.not_mem_nil, or_false] at h
  rcases h with ⟨rfl, rfl⟩ | ⟨rfl, rfl⟩ | ⟨rfl, rfl⟩ | ⟨rfl, rfl⟩ <;> rfl

/-- What stands before the first slash. -/
theorem authority_append {before : List Char} (h : '/' ∉ before) (after : List Char) :
    authority (before ++ '/' :: after) = before := by
  rw [authority, List.takeWhile_append_of_pos, List.takeWhile_cons_of_neg (by simp),
    List.append_nil]
  intro c hc
  have hne : c ≠ '/' := fun heq => h (heq ▸ hc)
  simpa using hne

theorem exists_cons_of_scheme {scheme : String} {secure : Bool} (h : (scheme, secure) ∈ schemes) :
    ∃ first more, scheme.toList = first :: more ∧ Text.isBlank first = false := by
  simp only [schemes, List.mem_cons, Prod.mk.injEq, List.not_mem_nil, or_false] at h
  rcases h with ⟨rfl, -⟩ | ⟨rfl, -⟩ | ⟨rfl, -⟩ | ⟨rfl, -⟩ <;> exact ⟨_, _, rfl, by decide⟩

/-- A scheme, the address and anything behind a slash name the endpoint. -/
theorem parse_of_address {url : String} {e : Endpoint} (hhost : e.host ≠ "")
    (hslash : '/' ∉ e.host.toList) {scheme : String} (hscheme : (scheme, e.secure) ∈ schemes)
    (after : List Char) (hurl : url.toList = scheme.toList ++ e.address.toList ++ '/' :: after) :
    parse url = .ok e := by
  obtain ⟨first, more, hfirst, hblank⟩ := exists_cons_of_scheme hscheme
  obtain ⟨kept, htrim⟩ := Text.exists_trim_append hblank (show Text.isBlank '/' = false by decide)
    (more ++ e.address.toList) after
  have hplain : '/' ∉ e.host.toList ++ ':' :: e.port.toNat.repr.toList := by
    have hport := (Text.isNumeral_repr e.port.toNat).notMem (c := '/') (by decide) (by decide)
    intro hmem
    rcases List.mem_append.1 hmem with hmem | hmem
    · exact hslash hmem
    · exact hport ((List.mem_cons.1 hmem).resolve_left (by decide))
  refine parse_eq_ok_iff.2 ⟨e.address.toList ++ '/' :: kept, e.port.toNat.repr.toList, ?_, ?_,
    hhost,
    Text.isNumeral_repr _⟩
  · rw [hurl, hfirst, List.cons_append, htrim, ← List.cons_append, ← hfirst, List.append_assoc]
    exact splitScheme_of_mem hscheme _
  · rw [toList_address, authority_append hplain]

theorem parse_pushUrl {e : Endpoint} (hhost : e.host ≠ "") (hslash : '/' ∉ e.host.toList) :
    parse e.pushUrl = .ok e := by
  have hscheme : (if e.secure then "wss://" else "ws://", e.secure) ∈ schemes := by
    cases e.secure <;> simp [schemes]
  refine parse_of_address hhost hslash hscheme ['w', 's'] ?_
  rw [pushUrl_eq, String.toList_append, String.toList_append]
  rfl

theorem parse_commandUrl {e : Endpoint} (hhost : e.host ≠ "") (hslash : '/' ∉ e.host.toList)
    (name : String) : parse (e.commandUrl name) = .ok e := by
  have hscheme : (if e.secure then "https://" else "http://", e.secure) ∈ schemes := by
    cases e.secure <;> simp [schemes]
  have htarget : target name = "/DebugCommand/" ++ name := rfl
  have hslashed : "/DebugCommand/".toList = '/' :: "DebugCommand/".toList := by decide +kernel
  refine parse_of_address hhost hslash hscheme ("DebugCommand/".toList ++ name.toList) ?_
  rw [commandUrl_eq, htarget, String.toList_append, String.toList_append, String.toList_append,
    hslashed, List.cons_append]

/-- Any text without a slash can be a host, unless it is empty. -/
theorem exists_parse_iff {e : Endpoint} :
    (∃ input, parse input = .ok e) ↔ e.host ≠ "" ∧ '/' ∉ e.host.toList := by
  constructor
  · rintro ⟨input, h⟩
    obtain ⟨rest, port, -, hauthority, hhost, -⟩ := parse_eq_ok_iff.1 h
    refine ⟨hhost, fun hmem => ?_⟩
    have hmem : '/' ∈ authority rest := by
      rw [hauthority]
      exact List.mem_append_left _ hmem
    simpa using List.mem_takeWhile_imp hmem
  · rintro ⟨hhost, hslash⟩
    exact ⟨e.pushUrl, parse_pushUrl hhost hslash⟩

/-- **Both addresses of an endpoint lead back to it.** Of an endpoint that was read from a text, the
address of the push channel and that of every command are read as the same endpoint again: the same
host, the same port, and secure or not as it was.

That the host is not empty and has no slash is all that is used of the input, and it is all that
there is to know (`exists_parse_iff`). -/
theorem addresses_lead_back {input : String} {e : Endpoint} (h : parse input = .ok e) :
    parse e.pushUrl = .ok e ∧ ∀ name, parse (e.commandUrl name) = .ok e := by
  obtain ⟨hhost, hslash⟩ := exists_parse_iff.1 ⟨input, h⟩
  exact ⟨parse_pushUrl hhost hslash, parse_commandUrl hhost hslash⟩

/-- A host full of colons and a blank, which begins like a scheme, and a port with a sign and zeros.
-/
theorem addresses_of_odd_host_lead_back :
    let e : Endpoint := ⟨"ws:[::1] ", 443, true⟩
    parse "\thttps://ws:[::1] :+0443/ws\n" = .ok e ∧
      parse "wss://ws:[::1] :443/ws" = .ok e ∧
      parse "https://ws:[::1] :443/DebugCommand/StackLocals/0?path=a b " = .ok e := by
  intro e
  have hread : parse "\thttps://ws:[::1] :+0443/ws\n" = .ok e := by decide +kernel
  have hpushed : e.pushUrl = "wss://ws:[::1] :443/ws" := by decide +kernel
  have hasked : e.commandUrl "StackLocals/0?path=a b " =
      "https://ws:[::1] :443/DebugCommand/StackLocals/0?path=a b " := by decide +kernel
  obtain ⟨hpush, hcommand⟩ := addresses_lead_back hread
  rw [hpushed] at hpush
  exact ⟨hread, hpush, hasked ▸ hcommand _⟩

end Endpoint

end DebugBridge
