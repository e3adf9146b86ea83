/-
What names an endpoint, said without a reader.

Blanks around an input do not count. Behind them comes a scheme, or none, and then an address up to
the first slash, and there is only one way to see an input so (`ConsistsOf.unique`). An address is
good if it is a host and a port with a colon between them. The host is not looked into, so it is the
last colon that counts.

Which of the three complaints is made is decided by that colon as well: by whether there is one, by
what stands before it, and last by what stands behind it (`Outcome`). The four outcomes exclude each
other, so each of them comes exactly when its condition holds, and the equivalences below need no
second look at the reader.
-/
import DebugBridge.Proofs.Endpoint
import DebugBridge.Proofs.Text.Words

namespace DebugBridge

namespace Endpoint

/-! ### What an address is

No definition here follows the reader. A scheme is a beginning of the text, an authority is a
beginning without slashes, and a port is a numeral, whichever way these are found.
-/

/-- The schemes that an address may have in front of it. -/
def schemeNames : List String := ["wss://", "https://", "ws://", "http://"]

/-- The scheme at the beginning of a text, if there is one, and what stands behind it. A text counts
as bare only if it begins with none of the four, so there is nothing to choose. -/
inductive Unschemed (text : List Char) : Option String → List Char → Prop
  | removed {scheme : String} {rest : List Char} (hscheme : scheme ∈ schemeNames)
      (htext : text = scheme.toList ++ rest) : Unschemed text (some scheme) rest
  | bare (hnone : ∀ scheme ∈ schemeNames, ¬ scheme.toList <+: text) : Unschemed text none text

/-- What stands before the first slash, or all of the text if it has none. -/
def IsAuthority (text before : List Char) : Prop :=
  '/' ∉ before ∧ (text = before ∨ ∃ after, text = before ++ '/' :: after)

/-- The scheme and the address that an input consists of: the blanks around it do not count, nor
does what follows a slash behind the scheme. -/
def ConsistsOf (input : String) (scheme : Option String) (address : List Char) : Prop :=
  ∃ trimmed rest, Text.IsTrimmed input.toList trimmed ∧ Unschemed trimmed scheme rest ∧
    IsAuthority rest address

/-- The address is `HOST:PORT`, for a host that is not empty and a port of 16 bits. -/
def Names (address host : List Char) (n : Nat) : Prop :=
  ∃ port, address = host ++ ':' :: port ∧ host ≠ [] ∧ ':' ∉ port ∧ Text.IsNumeral port n ∧ n ≤ 65535

/-! ### What an input consists of

Each of the three parts is there, and there is one of each. That the scheme is determined is not
obvious: were one of the four a beginning of another, a text could be seen in two ways.
-/

theorem mem_schemes {scheme : String} (h : scheme ∈ schemeNames) :
    (scheme, decide (scheme = "wss://" ∨ scheme = "https://")) ∈ schemes := by
  simp only [schemeNames, List.mem_cons, List.not_mem_nil, or_false] at h
  rcases h with rfl | rfl | rfl | rfl <;> decide

theorem dropStart?_eq_some_iff {start text rest : List Char} :
    dropStart? start text = some rest ↔ text = start ++ rest := by
  induction start generalizing text with
  | nil => simp [dropStart?, eq_comm]
  | cons s start ih =>
      cases text with
      | nil => simp [dropStart?]
      | cons c text =>
          rw [dropStart?]
          split
          · next h => simp [h, ih]
          · next h => simp [Ne.symm h]

theorem exists_unschemed (text : List Char) : ∃ scheme rest, Unschemed text scheme rest := by
  by_cases h : ∃ scheme ∈ schemeNames, scheme.toList <+: text
  · obtain ⟨scheme, hscheme, rest, hrest⟩ := h
    exact ⟨some scheme, rest, .removed hscheme hrest.symm⟩
  · exact ⟨none, text, .bare fun scheme hscheme hstart => h ⟨scheme, hscheme, hstart⟩⟩

theorem splitScheme_of_unschemed {text rest : List Char} {scheme : Option String}
    (h : Unschemed text scheme rest) :
    splitScheme text = (decide (scheme = some "wss://" ∨ scheme = some "https://"), rest) := by
  cases h with
  | @removed scheme rest hscheme htext =>
      rw [htext, splitScheme_of_mem (mem_schemes hscheme)]
      simp
  | bare hnone =>
      have hfound : (schemes.findSome? fun entry =>
          (dropStart? entry.1.toList text).map fun rest => (entry.2, rest)) = none := by
        rw [List.findSome?_eq_none_iff]
        intro entry hmem
        have hname : entry.1 ∈ schemeNames := List.mem_map_of_mem (f := Prod.fst) hmem
        cases hstart : dropStart? entry.1.toList text with
        | none => rfl
        | some rest => exact absurd ⟨rest, (dropStart?_eq_some_iff.1 hstart).symm⟩ (hnone _ hname)
      have hbare : splitScheme text = (false, text) :=
        congrArg (fun found => found.getD (false, text)) hfound
      rw [hbare]
      rfl

/-- There is only one way to take a scheme away. -/
theorem Unschemed.unique {text rest rest' : List Char} {scheme scheme' : Option String}
    (h : Unschemed text scheme rest) (h' : Unschemed text scheme' rest') :
    scheme' = scheme ∧ rest' = rest := by
  have hrest : rest' = rest := by
    have hsame := (splitScheme_of_unschemed h').symm.trans (splitScheme_of_unschemed h)
    exact congrArg Prod.snd hsame
  subst hrest
  refine ⟨?_, rfl⟩
  cases h with
  | removed hscheme htext =>
      cases h' with
      | removed hscheme' htext' =>
          rw [String.toList_inj.1 (List.append_cancel_right (htext'.symm.trans htext))]
      | bare hnone => exact absurd ⟨_, htext.symm⟩ (hnone _ hscheme)
  | bare hnone =>
      cases h' with
      | removed hscheme' htext' => exact absurd ⟨_, htext'.symm⟩ (hnone _ hscheme')
      | bare => rfl

theorem authority_eq_iff {text before : List Char} :
    authority text = before ↔ IsAuthority text before := by
  constructor
  · rintro rfl
    have hplain : '/' ∉ authority text := fun hmem => by simpa using List.mem_takeWhile_imp hmem
    have hwhole : authority text ++ text.dropWhile (· ≠ '/') = text :=
      List.takeWhile_append_dropWhile
    have hstop := List.head?_dropWhile_not (fun c => decide (c ≠ '/')) text
    refine ⟨hplain, ?_⟩
    cases hrest : text.dropWhile (· ≠ '/') with
    | nil =>
        rw [hrest, List.append_nil] at hwhole
        exact .inl hwhole.symm
    | cons c after =>
        rw [hrest] at hwhole hstop
        obtain rfl : c = '/' := by simpa using hstop
        exact .inr ⟨after, hwhole.symm⟩
  · rintro ⟨hplain, rfl | ⟨after, rfl⟩⟩
    · refine List.takeWhile_eq_self_iff.2 fun c hc => ?_
      have hne : c ≠ '/' := fun heq => hplain (heq ▸ hc)
      simpa using hne
    · exact authority_append hplain after

theorem exists_consistsOf (input : String) : ∃ scheme address, ConsistsOf input scheme address := by
  obtain ⟨scheme, rest, hscheme⟩ := exists_unschemed (Text.trim input.toList)
  exact ⟨scheme, authority rest, _, rest, Text.trim_eq_iff.1 rfl, hscheme, authority_eq_iff.1 rfl⟩

section Outcomes

variable {input : String} {scheme : Option String} {address : List Char}

theorem ConsistsOf.unique {scheme' : Option String} {address' : List Char}
    (h : ConsistsOf input scheme address) (h' : ConsistsOf input scheme' address') :
    scheme' = scheme ∧ address' = address := by
  obtain ⟨trimmed, rest, htrim, hscheme, hauthority⟩ := h
  obtain ⟨trimmed', rest', htrim', hscheme', hauthority'⟩ := h'
  obtain rfl : trimmed' = trimmed :=
    (Text.trim_eq_iff.2 htrim').symm.trans (Text.trim_eq_iff.2 htrim)
  obtain ⟨rfl, rfl⟩ := hscheme.unique hscheme'
  exact ⟨rfl, (authority_eq_iff.2 hauthority').symm.trans (authority_eq_iff.2 hauthority)⟩

/-! ### What is made of an address

The reader takes the last colon. Everything behind it has no colon, which is how the cases say so
without mentioning the last one.
-/

theorem splitScheme_of_consistsOf (h : ConsistsOf input scheme address) :
    ∃ rest, splitScheme (Text.trim input.toList) =
        (decide (scheme = some "wss://" ∨ scheme = some "https://"), rest) ∧
      authority rest = address := by
  obtain ⟨trimmed, rest, htrim, hscheme, hauthority⟩ := h
  rw [Text.trim_eq_iff.2 htrim]
  exact ⟨rest, splitScheme_of_unschemed hscheme, authority_eq_iff.2 hauthority⟩

theorem parse_of_no_colon (h : ConsistsOf input scheme address) (hcolon : ':' ∉ address) :
    parse input = .error (.missingPort input) := by
  obtain ⟨rest, hsplit, hauthority⟩ := splitScheme_of_consistsOf h
  simp only [parse, hsplit, hauthority, Text.splitAtLast_eq_none_iff.2 hcolon]

variable {host port : List Char}

theorem parse_of_no_host (h : ConsistsOf input scheme (':' :: port)) (hcolon : ':' ∉ port) :
    parse input = .error (.missingHost input) := by
  obtain ⟨rest, hsplit, hauthority⟩ := splitScheme_of_consistsOf h
  have hlast : Text.splitAtLast ':' (':' :: port) = some ([], port) :=
    Text.splitAtLast_append hcolon []
  simp only [parse, hsplit, hauthority, hlast]

theorem parse_of_bad_port (h : ConsistsOf input scheme (host ++ ':' :: port)) (hhost : host ≠ [])
    (hcolon : ':' ∉ port) {fault : Text.NumeralFault}
    (hread : Text.readNat 65535 port = .error fault) :
    parse input = .error (.badPort input fault) := by
  obtain ⟨rest, hsplit, hauthority⟩ := splitScheme_of_consistsOf h
  obtain ⟨first, more, rfl⟩ := List.exists_cons_of_ne_nil hhost
  simp only [parse, hsplit, hauthority, Text.splitAtLast_append hcolon, hread]

theorem parse_of_port (h : ConsistsOf input scheme (host ++ ':' :: port)) (hhost : host ≠ [])
    (hcolon : ':' ∉ port) {n : Nat} (hread : Text.readNat 65535 port = .ok n) :
    parse input = .ok ⟨String.ofList host, UInt16.ofNat n,
      decide (scheme = some "wss://" ∨ scheme = some "https://")⟩ := by
  obtain ⟨rest, hsplit, hauthority⟩ := splitScheme_of_consistsOf h
  obtain ⟨first, more, rfl⟩ := List.exists_cons_of_ne_nil hhost
  simp only [parse, hsplit, hauthority, Text.splitAtLast_append hcolon, hread]

/-- What can come of an address, and when. The result is part of the relation, so an outcome that is
known leaves one constructor, and with it the condition. -/
inductive Outcome (input : String) (scheme : Option String) (address : List Char) :
    Except EndpointError Endpoint → Prop
  | noPort (hcolon : ':' ∉ address) : Outcome input scheme address (.error (.missingPort input))
  | noHost {port : List Char} (hcolon : ':' ∉ port) (haddress : address = ':' :: port) :
      Outcome input scheme address (.error (.missingHost input))
  | badPort {host port : List Char} (hhost : host ≠ []) (hcolon : ':' ∉ port)
      (haddress : address = host ++ ':' :: port) (hbad : ∀ n, Text.IsNumeral port n → 65535 < n)
      (fault : Text.NumeralFault) : Outcome input scheme address (.error (.badPort input fault))
  | named {e : Endpoint}
      (hsecure : e.secure = true ↔ scheme = some "wss://" ∨ scheme = some "https://")
      (hnames : Names address e.host.toList e.port.toNat) : Outcome input scheme address (.ok e)

theorem outcome_parse (h : ConsistsOf input scheme address) :
    Outcome input scheme address (parse input) := by
  cases hlast : Text.splitAtLast ':' address with
  | none =>
      have hcolon := Text.splitAtLast_eq_none_iff.1 hlast
      rw [parse_of_no_colon h hcolon]
      exact .noPort hcolon
  | some found =>
      obtain ⟨host, port⟩ := found
      obtain rfl := Text.eq_append_of_splitAtLast hlast
      have hcolon := Text.not_mem_of_splitAtLast hlast
      by_cases hhost : host = []
      · subst hhost
        rw [parse_of_no_host h hcolon]
        exact .noHost hcolon rfl
      · cases hread : Text.readNat 65535 port with
        | error fault =>
            rw [parse_of_bad_port h hhost hcolon hread]
            refine .badPort hhost hcolon rfl (fun n hnumeral => ?_) fault
            by_contra hle
            have hok := Text.readNat_of_isNumeral hnumeral (Nat.le_of_not_lt hle)
            cases hok.symm.trans hread
        | ok n =>
            obtain ⟨hnumeral, hle⟩ := Text.readNat_eq_ok_iff.1 hread
            have hn : (UInt16.ofNat n).toNat = n :=
              UInt16.toNat_ofNat_of_lt' (Nat.lt_succ_of_le hle)
            rw [parse_of_port h hhost hcolon hread]
            refine .named (by simp) ⟨port, ?_, ?_, hcolon, ?_, ?_⟩
            · rw [String.toList_ofList]
            · rwa [String.toList_ofList]
            · rwa [hn]
            · rwa [hn]

/-! ### The outcomes told apart

A result that came of an input is one of the outcomes, and no two of these have a result in common,
so its condition holds. That the condition brings the result has been shown case by case above.
-/

theorem parse_eq_ok_iff_names (h : ConsistsOf input scheme address) {e : Endpoint} :
    parse input = .ok e ↔
      (e.secure = true ↔ scheme = some "wss://" ∨ scheme = some "https://") ∧
        Names address e.host.toList e.port.toNat := by
  constructor
  · intro hparse
    have houtcome := outcome_parse h
    rw [hparse] at houtcome
    cases houtcome with
    | named hsecure hnames => exact ⟨hsecure, hnames⟩
  · rintro ⟨hsecure, port, rfl, hhost, hcolon, hnumeral, hle⟩
    have hflag : decide (scheme = some "wss://" ∨ scheme = some "https://") = e.secure := by
      rw [Bool.eq_iff_iff, decide_eq_true_iff, hsecure]
    rw [parse_of_port h hhost hcolon (Text.readNat_eq_ok_iff.2 ⟨hnumeral, hle⟩), hflag,
      String.ofList_toList, UInt16.ofNat_toNat]

theorem exists_parse_eq_ok_iff (h : ConsistsOf input scheme address) :
    (∃ e, parse input = .ok e) ↔ ∃ host n, Names address host n := by
  constructor
  · rintro ⟨e, he⟩
    exact ⟨_, _, ((parse_eq_ok_iff_names h).1 he).2⟩
  · rintro ⟨host, n, port, rfl, hhost, hcolon, hnumeral, hle⟩
    exact ⟨_, parse_of_port h hhost hcolon (Text.readNat_eq_ok_iff.2 ⟨hnumeral, hle⟩)⟩

theorem parse_eq_missingPort_iff (h : ConsistsOf input scheme address) :
    parse input = .error (.missingPort input) ↔ ':' ∉ address := by
  refine ⟨fun hparse => ?_, parse_of_no_colon h⟩
  have houtcome := outcome_parse h
  rw [hparse] at houtcome
  cases houtcome with
  | noPort hcolon => exact hcolon

theorem parse_eq_missingHost_iff (h : ConsistsOf input scheme address) :
    parse input = .error (.missingHost input) ↔ ∃ port, ':' ∉ port ∧ address = ':' :: port := by
  constructor
  · intro hparse
    have houtcome := outcome_parse h
    rw [hparse] at houtcome
    cases houtcome with
    | @noHost port hcolon haddress => exact ⟨port, hcolon, haddress⟩
  · rintro ⟨port, hcolon, rfl⟩
    exact parse_of_no_host h hcolon

theorem exists_parse_eq_badPort_iff (h : ConsistsOf input scheme address) :
    (∃ fault, parse input = .error (.badPort input fault)) ↔
      ∃ host port, host ≠ [] ∧ ':' ∉ port ∧ address = host ++ ':' :: port ∧
        ∀ n, Text.IsNumeral port n → 65535 < n := by
  constructor
  · rintro ⟨fault, hparse⟩
    have houtcome := outcome_parse h
    rw [hparse] at houtcome
    cases houtcome with
    | @badPort host port hhost hcolon haddress hbad =>
        exact ⟨host, port, hhost, hcolon, haddress, hbad⟩
  · rintro ⟨host, port, hhost, hcolon, rfl, hbad⟩
    cases hread : Text.readNat 65535 port with
    | error fault => exact ⟨fault, parse_of_bad_port h hhost hcolon hread⟩
    | ok n =>
        obtain ⟨hnumeral, hle⟩ := Text.readNat_eq_ok_iff.1 hread
        exact absurd hle (Nat.not_le_of_lt (hbad n hnumeral))

end Outcomes

/-- **The grammar of endpoints.** Every input consists of one scheme, or none, and one address. It
names an endpoint exactly if the address is a host and a port that fits into 16 bits with a colon
between them; the host is then taken as it stands, the port by its value, and the scheme decides
whether the connection is secure. Otherwise the input is said to have no port if there is no colon
in the address, else no host if nothing stands before the last colon, and else a bad port.

The conditions on the address exclude each other and leave nothing out, so each outcome comes
exactly with its own. That no other complaint is ever made is the last part. -/
theorem parse_follows_grammar (input : String) :
    ∃ scheme address, ConsistsOf input scheme address ∧
      (∀ scheme' address', ConsistsOf input scheme' address' →
        scheme' = scheme ∧ address' = address) ∧
      ((∃ e, parse input = .ok e) ↔ ∃ host n, Names address host n) ∧
      (∀ e, parse input = .ok e ↔
        (e.secure = true ↔ scheme = some "wss://" ∨ scheme = some "https://") ∧
          Names address e.host.toList e.port.toNat) ∧
      (parse input = .error (.missingPort input) ↔ ':' ∉ address) ∧
      (parse input = .error (.missingHost input) ↔ ∃ port, ':' ∉ port ∧ address = ':' :: port) ∧
      ((∃ fault, parse input = .error (.badPort input fault)) ↔
        ∃ host port, host ≠ [] ∧ ':' ∉ port ∧ address = host ++ ':' :: port ∧
          ∀ n, Text.IsNumeral port n → 65535 < n) ∧
      ∀ error, parse input = .error error →
        error = .missingPort input ∨ error = .missingHost input ∨
          ∃ fault, error = .badPort input fault := by
  obtain ⟨scheme, address, h⟩ := exists_consistsOf input
  refine ⟨scheme, address, h, fun _ _ => h.unique, exists_parse_eq_ok_iff h,
    fun e => parse_eq_ok_iff_names h, parse_eq_missingPort_iff h, parse_eq_missingHost_iff h,
    exists_parse_eq_badPort_iff h, fun error hparse => ?_⟩
  have houtcome := outcome_parse h
  rw [hparse] at houtcome
  cases houtcome with
  | noPort => exact .inl rfl
  | noHost => exact .inr (.inl rfl)
  | badPort _ _ _ _ fault => exact .inr (.inr ⟨fault, rfl⟩)

/-- The host keeps its colons, and what follows the slash does not count. -/
example : parse " wss://a:b:+0443/x " = .ok ⟨"a:b", 443, true⟩ := by
  decide +kernel

end Endpoint

end DebugBridge
