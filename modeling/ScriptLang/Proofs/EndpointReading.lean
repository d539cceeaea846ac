import ScriptLang.Proofs.SettingsAsFlags

/-!
# Endpoints as texts

A text names an address if it is marked as one or is a host, a colon and a port, and else the path of a
socket (`ofText_eq`).  A printed address is marked, and the path of a socket is printed as it was read.
So an endpoint that was read is read again from its printed form, by a backend as well that is started
with it (`endpoints_read_back`).
-/

namespace ScriptLang

namespace Decimal

/-! ### Ports -/

theorem isDigit_of_digitValue? {c : Char} {d : Nat} (h : digitValue? 10 c = some d) :
    c.isDigit = true := by
  unfold digitValue? at h
  obtain ⟨value, small⟩ := Option.filter_eq_some_iff.1 h
  have small := of_decide_eq_true small
  split at value
  · assumption
  · split at value
    · cases value
      omega
    · split at value
      · cases value
        omega
      · cases value

theorem isDigit_of_readDigits? : ∀ {cs : List Char} {start n : Nat},
    readDigits? 10 start cs = some n → ∀ c ∈ cs, c.isDigit = true
  | [], _, _, _ => nofun
  | c :: cs, start, n, h => by
    rw [readDigits?] at h
    split at h
    · next d first =>
      exact List.forall_mem_cons.2 ⟨isDigit_of_digitValue? first, isDigit_of_readDigits? h⟩
    · cases h

theorem readNat?_eq_some_iff {cs : List Char} {n : Nat} : readNat? 10 cs = some n ↔
    cs ≠ [] ∧ (∀ c ∈ cs, c.isDigit = true) ∧ Nat.ofDigitChars 10 cs 0 = n := by
  unfold readNat?
  constructor
  · intro h
    split at h
    · cases h
    · next some =>
      have digits := isDigit_of_readDigits? h
      rw [readDigits?_of_digits cs 0 digits] at h
      exact ⟨mt List.isEmpty_iff.2 some, digits, Option.some.inj h⟩
  · rintro ⟨some, digits, rfl⟩
    rw [if_neg (mt List.isEmpty_iff.1 some), readDigits?_of_digits cs 0 digits]

/-- A number is read from digits behind at most a plus sign, if it is small enough. -/
theorem readBits?_eq_some_iff {bits n : Nat} {cs : List Char} : readBits? bits cs = some n ↔
    n < 2 ^ bits ∧ ∃ ds, (cs = ds ∨ cs = '+' :: ds) ∧ ds ≠ [] ∧ (∀ c ∈ ds, c.isDigit = true) ∧
      Nat.ofDigitChars 10 ds 0 = n := by
  unfold readBits?
  rw [Option.filter_eq_some_iff, decide_eq_true_iff, readNat?_eq_some_iff, and_comm]
  refine and_congr_right fun _ => ?_
  split
  · next ds =>
    constructor
    · exact fun digits => ⟨ds, .inr rfl, digits⟩
    · rintro ⟨ds', rfl | same, digits⟩
      · exact absurd (digits.2.1 '+' List.mem_cons_self) (by decide)
      · exact List.cons.inj same |>.2 ▸ digits
  · next unsigned =>
    constructor
    · exact fun digits => ⟨cs, .inl rfl, digits⟩
    · rintro ⟨ds, rfl | rfl, digits⟩
      · exact digits
      · exact absurd rfl (unsigned ds)

end Decimal

namespace Wire.Endpoint

/-! ### Hosts and ports -/

/-- The last colon parts a text. -/
theorem splitPort_eq_some_iff {cs host port : List Char} :
    splitPort cs = some (host, port) ↔ cs = host ++ ':' :: port ∧ ':' ∉ port := by
  have parts := cs.reverse.takeWhile_append_dropWhile (p := (· ≠ ':'))
  have before : ':' ∉ cs.reverse.takeWhile (· ≠ ':') := fun inside =>
    absurd (List.mem_takeWhile_imp inside) (by decide)
  unfold splitPort
  constructor
  · intro h
    split at h
    · next c rest last =>
      have colon : c = ':' := by
        have fails := List.head?_dropWhile_not (· ≠ ':') cs.reverse
        rw [last] at fails
        simpa using fails
      cases h
      rw [last, colon] at parts
      have whole := (List.reverse_reverse cs).symm.trans (congrArg List.reverse parts.symm)
      exact ⟨whole.trans (by simp), by rwa [List.mem_reverse]⟩
    · cases h
  · rintro ⟨rfl, plain⟩
    have passes : ∀ c ∈ port.reverse, decide (c ≠ ':') = true := fun c hc =>
      decide_eq_true fun same => plain (List.mem_reverse.1 (same ▸ hc))
    have turned : (host ++ ':' :: port).reverse = port.reverse ++ ':' :: host.reverse := by simp
    rw [turned, List.dropWhile_append_of_pos passes, List.takeWhile_append_of_pos passes]
    simp

/-- The digits of a number of 16 bits behind at most a plus sign. -/
def IsPort (port : List Char) : Prop :=
  ∃ ds, (port = ds ∨ port = '+' :: ds) ∧ ds ≠ [] ∧ (∀ c ∈ ds, c.isDigit = true) ∧
    Nat.ofDigitChars 10 ds 0 < 2 ^ 16

/-- A text without slash that is a host, a colon and a port without colon. -/
def IsHostAndPort (cs : List Char) : Prop :=
  '/' ∉ cs ∧ ∃ host port, cs = host ++ ':' :: port ∧ host ≠ [] ∧ ':' ∉ port ∧ IsPort port

theorem isPort_iff {port : List Char} : IsPort port ↔ (Decimal.readBits? 16 port).isSome = true := by
  rw [Option.isSome_iff_exists]
  constructor
  · rintro ⟨ds, port, some, digits, small⟩
    exact ⟨_, Decimal.readBits?_eq_some_iff.2 ⟨small, ds, port, some, digits, rfl⟩⟩
  · rintro ⟨n, read⟩
    obtain ⟨small, ds, port, some, digits, rfl⟩ := Decimal.readBits?_eq_some_iff.1 read
    exact ⟨ds, port, some, digits, small⟩

theorem isHostAndPort_iff {cs : List Char} : isHostAndPort cs = true ↔ IsHostAndPort cs := by
  unfold isHostAndPort
  rw [Bool.and_eq_true, Bool.not_eq_true', ← Bool.not_eq_true, List.contains_iff_mem]
  refine and_congr_right fun _ => ?_
  constructor
  · intro h
    split at h
    · next host port parts =>
      obtain ⟨whole, plain⟩ := splitPort_eq_some_iff.1 parts
      rw [Bool.and_eq_true, ← isPort_iff] at h
      exact ⟨host, port, whole, by simpa using h.1, plain, h.2⟩
    · cases h
  · rintro ⟨host, port, whole, some, plain, reads⟩
    rw [splitPort_eq_some_iff.2 ⟨whole, plain⟩]
    dsimp only
    rw [Bool.and_eq_true, ← isPort_iff]
    exact ⟨by simpa using some, reads⟩

/-! ### Reading and printing -/

/-- What a text names: the address behind the mark, or the text itself as an address or as a path. -/
theorem ofText_cases {s : String} {e : Endpoint} (h : ofText s = .ok e) :
    (∃ a, s = addressMark ++ a ∧ e = .address a) ∨
    (¬ addressMark.toList <+: s.toList ∧ IsHostAndPort s.toList ∧ e = .address s) ∨
    (¬ addressMark.toList <+: s.toList ∧ ¬ IsHostAndPort s.toList ∧ e = .socket s) := by
  have read := h
  unfold ofText at h
  split at h
  · cases h
  · split at h
    · next marked =>
      obtain ⟨cs, hcs⟩ := List.isPrefixOf_iff_prefix.1 marked
      have whole : s = addressMark ++ String.ofList cs := by
        rw [← String.toList_inj, String.toList_append, String.toList_ofList, hcs]
      rw [whole, ofText_marked] at read
      exact .inl ⟨_, whole, (Except.ok.inj read).symm⟩
    · next other =>
      have unmarked := mt List.isPrefixOf_iff_prefix.2 other
      split at h
      · next host => exact .inr (.inl ⟨unmarked, isHostAndPort_iff.1 host, (Except.ok.inj h).symm⟩)
      · next path =>
        exact .inr (.inr ⟨unmarked, mt isHostAndPort_iff.2 path, (Except.ok.inj h).symm⟩)

/-- What was read is read again from its printed form: that of an address has the mark, and that of a
path is the text that was read. -/
theorem ofText_text_of_ofText {s : String} {e : Endpoint} (h : ofText s = .ok e) :
    ofText e.text = .ok e := by
  rcases ofText_cases h with ⟨a, -, rfl⟩ | ⟨-, -, rfl⟩ | ⟨-, -, rfl⟩
  · exact ofText_marked a
  · exact ofText_marked s
  · exact h

/-- A text names an address if it has the mark or is a host and a port. -/
theorem exists_address_iff {s : String} {e : Endpoint} (h : ofText s = .ok e) :
    (∃ a, e = .address a) ↔ addressMark.toList <+: s.toList ∨ IsHostAndPort s.toList := by
  rcases ofText_cases h with ⟨a, rfl, rfl⟩ | ⟨-, host, rfl⟩ | ⟨unmarked, path, rfl⟩
  · have marked : addressMark.toList <+: (addressMark ++ a).toList := by
      rw [String.toList_append]
      exact List.prefix_append _ _
    exact iff_of_true ⟨a, rfl⟩ (.inl marked)
  · exact iff_of_true ⟨s, rfl⟩ (.inr host)
  · refine iff_of_false nofun ?_
    exact not_or.2 ⟨unmarked, path⟩

/-- Every text but the empty one names an endpoint. -/
theorem exists_ofText_iff {s : String} : (∃ e, ofText s = .ok e) ↔ s ≠ "" := by
  unfold ofText
  constructor
  · rintro ⟨e, h⟩ rfl
    cases h
  · intro some
    rw [if_neg (mt String.isEmpty_iff.1 some)]
    split
    · exact ⟨_, rfl⟩
    · split <;> exact ⟨_, rfl⟩

end Wire.Endpoint

namespace Backend

open Wire (Endpoint)

variable {host : Host} {e e' : Endpoint} {pairs : List String}

/-- A backend listens on the endpoint that its only argument besides options names. -/
theorem endpoint_of_launch {arguments : List String} {config : Config}
    (h : launch arguments host = .ok (e', config)) :
    ∃ text, (Options.ofFlags arguments).2 = [text] ∧ Endpoint.ofText text = .ok e' := by
  unfold launch at h
  split at h
  · next options text parted =>
    refine ⟨text, by rw [parted], ?_⟩
    cases read : Endpoint.ofText text with
    | error err =>
      rw [read] at h
      cases h
    | ok found =>
      rw [read] at h
      change ((listen host found).mapError LaunchError.protocol).bind _ = _ at h
      cases heard : listen host found with
      | error err =>
        rw [heard] at h
        cases h
      | ok _ =>
        rw [heard] at h
        cases h
        rfl
  · cases h

/-- Behind an endpoint that is read again there are only options, so the backend listens on no other
one. -/
theorem launch_only {config : Config} (read : Endpoint.ofText e.text = .ok e) (nonempty : "" ∉ pairs)
    (h : launch (e.text :: pairs.map ("--" ++ ·)) host = .ok (e', config)) : e' = e := by
  obtain ⟨text, alone, named⟩ := endpoint_of_launch h
  have given : text ∈ (Options.ofFlags (e.text :: pairs.map ("--" ++ ·))).2 := by
    rw [alone]
    exact List.mem_singleton_self text
  obtain ⟨among, none⟩ := List.mem_filter.1 given
  rcases List.mem_cons.1 among with rfl | flag
  · exact Except.ok.inj (named.symm.trans read)
  · obtain ⟨pair, hpair, rfl⟩ := List.mem_map.1 flag
    have some := Options.flag?_dashes fun empty => nonempty (empty ▸ hpair)
    rw [some] at none
    cases none

/-- With an endpoint that is no option the backend listens there, if it can. -/
theorem launch_listens (read : Endpoint.ofText e.text = .ok e) (nonempty : "" ∉ pairs)
    (other : Options.flag? e.text = none) (listens : listen host e = .ok ()) :
    launch (e.text :: pairs.map ("--" ++ ·)) host =
      .ok (e, (Config.withOptions {} (Options.ofPairs pairs)).1) := by
  unfold launch
  rw [Options.ofFlags_dashes other nonempty]
  dsimp only
  rw [read]
  change ((listen host e).mapError LaunchError.protocol).bind _ = _
  rw [listens]
  rfl

/-- Every text but the empty one names an endpoint, and the endpoint is named by its printed form as
well.  It is an address exactly if the text has the mark, or has no slash and is a host, a colon and a
port.  A backend that is started with the printed form and with flags listens on this endpoint or not at
all, and it does so where it can unless the printed form is itself a flag. -/
theorem endpoints_read_back :
    (∀ s, (∃ e, Endpoint.ofText s = .ok e) ↔ s ≠ "") ∧
    ∀ s e, Endpoint.ofText s = .ok e →
      Endpoint.ofText e.text = .ok e ∧
      ((∃ a, e = .address a) ↔
        Endpoint.addressMark.toList <+: s.toList ∨ Endpoint.IsHostAndPort s.toList) ∧
      ∀ (pairs : List String) (host : Host), "" ∉ pairs →
        (∀ e' config, launch (e.text :: pairs.map ("--" ++ ·)) host = .ok (e', config) → e' = e) ∧
        (Options.flag? e.text = none → listen host e = .ok () →
          launch (e.text :: pairs.map ("--" ++ ·)) host =
            .ok (e, (Config.withOptions {} (Options.ofPairs pairs)).1)) := by
  refine ⟨fun s => Endpoint.exists_ofText_iff, fun s e h => ?_⟩
  have again := Endpoint.ofText_text_of_ofText h
  refine ⟨again, Endpoint.exists_address_iff h, fun pairs host nonempty => ⟨?_, ?_⟩⟩
  · exact fun e' config => launch_only again nonempty
  · exact launch_listens again nonempty

/-- A host with colons and a port with a sign are an address; behind a slash they are part of a path. -/
theorem signed_port_reads_back :
    Endpoint.ofText (Endpoint.address "a:b:+080").text = .ok (.address "a:b:+080") ∧
      Endpoint.IsHostAndPort "a:b:+080".toList ∧ ¬ Endpoint.IsHostAndPort "c/b:80".toList := by
  obtain ⟨-, reads⟩ := endpoints_read_back
  have address := reads "a:b:+080" (.address "a:b:+080") rfl
  have path := reads "c/b:80" (.socket "c/b:80") rfl
  refine ⟨address.1, (address.2.1.1 ⟨_, rfl⟩).resolve_left (by decide), fun host => ?_⟩
  obtain ⟨a, h⟩ := path.2.1.2 (.inr host)
  cases h

end Backend

end ScriptLang
