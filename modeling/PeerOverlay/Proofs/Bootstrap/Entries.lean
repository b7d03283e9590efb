import PeerOverlay.Bootstrap
import PeerOverlay.Proofs.Text.Decimal

/-!
# The grammar of bootstrap entries

An entry is a host and a port with a colon between them, and the host stands in brackets if there
are colons in it (`IsEntry`).  Entries are read so, but for three kinds that are read otherwise
(`Misread`): what stands before the last colon is taken for the host, whatever is in it, and any
brackets at its ends are left out.
-/

namespace PeerOverlay.Bootstrap

open PeerOverlay.Text PeerOverlay.Numeral

/-! ## Brackets -/

/-- A host with brackets around it, as many at either end as there are. -/
structure Bracketed (front : List Char) (opening : Nat) (host : List Char) (closing : Nat) :
    Prop where
  same : front = List.replicate opening '[' ++ (host ++ List.replicate closing ']')
  first : host.head? ≠ some '['
  last : host.getLast? ≠ some ']'

theorem dropWhile_replicate_append {char : Char} {text : List Char} (first : text.head? ≠ some char)
    (count : Nat) : (List.replicate count char ++ text).dropWhile (· = char) = text := by
  rw [List.dropWhile_append_of_pos fun other member => by simp [List.eq_of_mem_replicate member]]
  cases text with
  | nil => rfl
  | cons head rest =>
      have other : head ≠ char := fun same => first (congrArg some same)
      exact List.dropWhile_cons_of_neg (by simp [other])

section Brackets

variable {front host : List Char} {opening closing : Nat}

theorem Bracketed.withoutBrackets_eq (bracketed : Bracketed front opening host closing) :
    withoutBrackets front = host := by
  have first : (host ++ List.replicate closing ']').head? ≠ some '[' := by
    cases host with
    | nil => cases closing <;> simp [List.replicate_succ]
    | cons head rest => simpa using bracketed.first
  have last : host.reverse.head? ≠ some ']' := by
    rw [List.head?_reverse]
    exact bracketed.last
  rw [withoutBrackets, bracketed.same, dropWhile_replicate_append first, List.reverse_append,
    List.reverse_replicate, dropWhile_replicate_append last, List.reverse_reverse]

theorem exists_replicate_append (char : Char) (text : List Char) :
    ∃ count rest, text = List.replicate count char ++ rest ∧ rest.head? ≠ some char := by
  induction text with
  | nil => exact ⟨0, [], rfl, nofun⟩
  | cons head rest hypothesis =>
      by_cases same : head = char
      · obtain ⟨count, behind, text, other⟩ := hypothesis
        exact ⟨count + 1, behind, by rw [text, same, List.replicate_succ, List.cons_append], other⟩
      · exact ⟨0, head :: rest, rfl, fun first => same (Option.some.inj first)⟩

theorem exists_bracketed (front : List Char) :
    ∃ opening host closing, Bracketed front opening host closing := by
  obtain ⟨opening, rest, start, first⟩ := exists_replicate_append '[' front
  obtain ⟨closing, tsoh, ending, last⟩ := exists_replicate_append ']' rest.reverse
  have split : rest = tsoh.reverse ++ List.replicate closing ']' := by
    rw [← List.reverse_reverse rest, ending, List.reverse_append, List.reverse_replicate]
  refine ⟨opening, tsoh.reverse, closing, by rw [start, split], ?_, ?_⟩
  · intro opened
    rw [split, List.head?_append, opened] at first
    exact first rfl
  · rwa [List.getLast?_reverse]

/-- Another pair of brackets around it leaves the host as it is. -/
theorem Bracketed.enclose (bracketed : Bracketed front opening host closing) :
    Bracketed ('[' :: (front ++ [']'])) (opening + 1) host (closing + 1) where
  same := by
    rw [bracketed.same, List.replicate_succ, List.replicate_succ']
    simp
  first := bracketed.first
  last := bracketed.last

end Brackets

/-! ## Ports -/

/-- A port is written by decimal digits only, and is not zero. -/
structure SpellsPort (digits : List Char) (port : UInt16) : Prop where
  decimal : IsDecimal digits
  value : decimalValue digits = port.toNat
  some? : port ≠ 0

theorem not_isDecimal_plus (digits : List Char) : ¬ IsDecimal ('+' :: digits) := by
  intro decimal
  exact absurd (decimal.digits '+' List.mem_cons_self) (by decide)

theorem SpellsPort.colon_not_mem {digits : List Char} {port : UInt16}
    (spells : SpellsPort digits port) : ':' ∉ digits :=
  spells.decimal.not_mem (by decide)

theorem spellsPort_iff {digits : List Char} {port : UInt16} :
    SpellsPort digits port ↔ read? 10 digits = some port.toNat ∧ port ≠ 0 := by
  rw [read?_ten_eq_some_iff]
  exact ⟨fun spells => ⟨⟨spells.decimal, spells.value⟩, spells.some?⟩,
    fun ⟨⟨decimal, value⟩, some?⟩ => ⟨decimal, value, some?⟩⟩

theorem readSigned?_eq_some_iff {digits : List Char} {value : Nat} :
    readSigned? 10 digits = some value ↔
      read? 10 digits = some value ∨ ∃ rest, digits = '+' :: rest ∧ read? 10 rest = some value := by
  unfold readSigned?
  split
  · next rest =>
      have signed : read? 10 ('+' :: rest) ≠ some value :=
        fun read => not_isDecimal_plus rest (read?_ten_eq_some_iff.1 read).1
      simp [signed]
  · next unsigned =>
      rw [or_iff_left]
      rintro ⟨rest, same, -⟩
      exact unsigned rest same

theorem port?_eq_some_iff_readSigned? {digits : List Char} {port : UInt16} :
    port? digits = some port ↔ readSigned? 10 digits = some port.toNat ∧ port ≠ 0 := by
  have below := port.toNat_lt
  have zero : port ≠ 0 ↔ port.toNat ≠ 0 := UInt16.toNat_inj.symm.not
  rw [zero]
  unfold port?
  cases readSigned? 10 digits with
  | none => simp
  | some value =>
      show (if value = 0 ∨ UInt16.size ≤ value then none else some (UInt16.ofNat value)) =
        some port ↔ some value = some port.toNat ∧ port.toNat ≠ 0
      rw [Option.some.injEq]
      split
      · next outside =>
          refine iff_of_false nofun ?_
          rintro ⟨rfl, positive⟩
          rcases outside with none | large
          · exact positive none
          · exact absurd below (Nat.not_lt.2 large)
      · next inside =>
          rw [not_or, Nat.not_le] at inside
          rw [Option.some.injEq, ← UInt16.toNat_inj, UInt16.toNat_ofNat_of_lt' inside.2]
          exact ⟨fun same => ⟨same, same ▸ inside.1⟩, fun known => known.1⟩

/-- A plus sign before the digits of a port is passed over. -/
theorem port?_eq_some_iff {digits : List Char} {port : UInt16} :
    port? digits = some port ↔
      SpellsPort digits port ∨ ∃ rest, digits = '+' :: rest ∧ SpellsPort rest port := by
  simp only [port?_eq_some_iff_readSigned?, readSigned?_eq_some_iff, spellsPort_iff, or_and_right,
    ← and_assoc, exists_and_right]

/-! ## The grammar -/

/-- An entry names a host that has no colons and no brackets in it, or any host in brackets, and a
port. -/
inductive IsEntry (entry host : List Char) (port : UInt16) : Prop where
  | bare (some? : host ≠ []) (plain : ∀ char ∈ host, char ≠ ':' ∧ char ≠ '[' ∧ char ≠ ']')
      (digits : List Char) (spells : SpellsPort digits port) (same : entry = host ++ ':' :: digits)
  | bracketed (some? : host ≠ []) (digits : List Char) (spells : SpellsPort digits port)
      (same : entry = '[' :: (host ++ [']']) ++ ':' :: digits)

/-- The entries that are read otherwise: with a plus sign before the port; with colons or brackets
in a host that is not in brackets; and with more than one pair of brackets around the host. -/
inductive Misread (entry : List Char) : Prop where
  | signed (front host digits : List Char) (opening closing : Nat) (port : UInt16)
      (around : Bracketed front opening host closing) (some? : host ≠ [])
      (spells : SpellsPort digits port) (same : entry = front ++ ':' :: '+' :: digits)
  | unpaired (front host digits : List Char) (opening closing : Nat) (port : UInt16)
      (around : Bracketed front opening host closing) (some? : host ≠ [])
      (missing : opening = 0 ∨ closing = 0)
      (marked : ∃ char ∈ front, char = ':' ∨ char = '[' ∨ char = ']')
      (spells : SpellsPort digits port) (same : entry = front ++ ':' :: digits)
  | repeated (front host digits : List Char) (opening closing : Nat) (port : UInt16)
      (around : Bracketed front opening host closing) (opens : 0 < opening) (closes : 0 < closing)
      (several : 2 < opening + closing) (spells : SpellsPort digits port)
      (same : entry = front ++ ':' :: digits)

/-! ## What is read -/

section Reading

variable {entry front host digits : List Char} {opening closing : Nat} {port : UInt16}

theorem colon_not_mem_of_port? (known : port? digits = some port) : ':' ∉ digits := by
  rcases port?_eq_some_iff.1 known with spells | ⟨rest, rfl, spells⟩
  · exact spells.colon_not_mem
  · rw [List.mem_cons, not_or]
    exact ⟨by decide, spells.colon_not_mem⟩

/-- Exactly what stands before the last colon, less the brackets at its ends, is taken for the
host, if anything is left of it. -/
theorem hostAndPort?_eq_some_iff :
    hostAndPort? entry = some (host, port) ↔
      host ≠ [] ∧ ∃ front digits opening closing, entry = front ++ ':' :: digits ∧
        Bracketed front opening host closing ∧ port? digits = some port := by
  constructor
  · intro accepted
    simp only [hostAndPort?, Option.bind_eq_bind, Option.bind_eq_some_iff, Prod.exists,
      cutAtLast?_eq_some_iff] at accepted
    obtain ⟨front, digits, ⟨same, -⟩, read, known, rest⟩ := accepted
    obtain ⟨opening, inner, closing, around⟩ := exists_bracketed front
    rw [around.withoutBrackets_eq] at rest
    obtain ⟨some?, parts⟩ := Option.ite_none_left_eq_some.1 rest
    cases parts
    exact ⟨some?, front, digits, opening, closing, same, around, known⟩
  · rintro ⟨some?, front, digits, opening, closing, rfl, around, known⟩
    rw [hostAndPort?, cutAtLast?_append (colon_not_mem_of_port? known)]
    simp [known, around.withoutBrackets_eq, some?]

theorem Bracketed.of_plain (plain : ∀ char ∈ host, char ≠ ':' ∧ char ≠ '[' ∧ char ≠ ']') :
    Bracketed host 0 host 0 where
  same := by simp
  first := fun first => (plain '[' (List.mem_of_mem_head? first)).2.1 rfl
  last := fun last => (plain ']' (List.mem_of_getLast? last)).2.2 rfl

/-- An entry of the grammar is read unless its host is in more than one pair of brackets. -/
theorem IsEntry.accepted (isEntry : IsEntry entry host port) :
    hostAndPort? entry = some (host, port) ∨ Misread entry := by
  rw [hostAndPort?_eq_some_iff]
  cases isEntry with
  | bare some? plain digits spells same =>
      exact .inl ⟨some?, host, digits, 0, 0, same, .of_plain plain,
        port?_eq_some_iff.2 (.inl spells)⟩
  | bracketed some? digits spells same =>
      obtain ⟨opening, inner, closing, around⟩ := exists_bracketed host
      by_cases single : opening = 0 ∧ closing = 0
      · obtain ⟨rfl, rfl⟩ := single
        have own : host = inner := by simpa using around.same
        subst own
        exact .inl ⟨some?, _, digits, 1, 1, same, around.enclose,
          port?_eq_some_iff.2 (.inl spells)⟩
      · exact .inr (.repeated _ inner digits _ _ port around.enclose (Nat.succ_pos _)
          (Nat.succ_pos _) (by omega) spells same)

/-- What is read is an entry of the grammar unless it is misread. -/
theorem isEntry_or_misread (accepted : hostAndPort? entry = some (host, port)) :
    IsEntry entry host port ∨ Misread entry := by
  obtain ⟨some?, front, digits, opening, closing, same, around, known⟩ :=
    hostAndPort?_eq_some_iff.1 accepted
  rcases port?_eq_some_iff.1 known with spells | ⟨rest, rfl, spells⟩
  · by_cases missing : opening = 0 ∨ closing = 0
    · by_cases marked : ∃ char ∈ front, char = ':' ∨ char = '[' ∨ char = ']'
      · exact .inr (.unpaired front host digits opening closing port around some? missing marked
          spells same)
      · -- Without any bracket the host is all that stands before the port.
        have plain : ∀ char ∈ front, char ≠ ':' ∧ char ≠ '[' ∧ char ≠ ']' := by
          simpa only [not_exists, not_and, not_or] using marked
        obtain rfl : host = front :=
          around.withoutBrackets_eq.symm.trans (Bracketed.of_plain plain).withoutBrackets_eq
        exact .inl (.bare some? plain digits spells same)
    · by_cases several : 2 < opening + closing
      · exact .inr (.repeated front host digits opening closing port around (by omega) (by omega)
          several spells same)
      · obtain ⟨rfl, rfl⟩ : opening = 1 ∧ closing = 1 := by omega
        have text : front = '[' :: (host ++ [']']) := around.same
        exact .inl (.bracketed some? digits spells (text ▸ same))
  · exact .inr (.signed front host rest opening closing port around some? spells same)

/-! ## What is misread -/

theorem not_isEntry_signed {other : List Char} {number : UInt16} (spells : SpellsPort digits port) :
    ¬ IsEntry (front ++ ':' :: '+' :: digits) other number := by
  have whole : ':' ∉ '+' :: digits := by
    rw [List.mem_cons, not_or]
    exact ⟨by decide, spells.colon_not_mem⟩
  intro isEntry
  cases isEntry with
  | bare _ _ ownDigits ownSpells same =>
      obtain ⟨-, rfl⟩ := append_cons_inj_of_not_mem whole ownSpells.colon_not_mem same
      exact not_isDecimal_plus digits ownSpells.decimal
  | bracketed _ ownDigits ownSpells same =>
      obtain ⟨-, rfl⟩ := append_cons_inj_of_not_mem whole ownSpells.colon_not_mem same
      exact not_isDecimal_plus digits ownSpells.decimal

/-- Brackets at both ends are counted at both ends. -/
theorem Bracketed.pos_of_enclosed {inner : List Char}
    (around : Bracketed ('[' :: (inner ++ [']'])) opening host closing) (some? : host ≠ []) :
    0 < opening ∧ 0 < closing := by
  constructor
  · by_contra none
    obtain rfl : opening = 0 := Nat.eq_zero_of_not_pos none
    have same := around.same
    rw [List.replicate_zero, List.nil_append] at same
    have first := congrArg List.head? same
    rw [List.head?_append_of_ne_nil host some?] at first
    exact around.first first.symm
  · by_contra none
    obtain rfl : closing = 0 := Nat.eq_zero_of_not_pos none
    have same := around.same
    rw [List.replicate_zero, List.append_nil] at same
    have last := congrArg List.getLast? same
    rw [← List.cons_append, List.getLast?_concat,
      List.getLast?_append_of_ne_nil _ some?] at last
    exact around.last last.symm

theorem not_isEntry_unpaired {other : List Char} {number : UInt16}
    (around : Bracketed front opening host closing) (some? : host ≠ [])
    (missing : opening = 0 ∨ closing = 0)
    (marked : ∃ char ∈ front, char = ':' ∨ char = '[' ∨ char = ']')
    (spells : SpellsPort digits port) : ¬ IsEntry (front ++ ':' :: digits) other number := by
  intro isEntry
  cases isEntry with
  | bare _ plain ownDigits ownSpells same =>
      obtain ⟨rfl, -⟩ := append_cons_inj_of_not_mem spells.colon_not_mem
        ownSpells.colon_not_mem same
      obtain ⟨char, member, mark⟩ := marked
      have none := plain char member
      tauto
  | bracketed _ ownDigits ownSpells same =>
      obtain ⟨rfl, -⟩ := append_cons_inj_of_not_mem spells.colon_not_mem
        ownSpells.colon_not_mem same
      have both := around.pos_of_enclosed some?
      omega

theorem Misread.disagree (misread : Misread entry) :
    ¬ ∀ host port, hostAndPort? entry = some (host, port) ↔ IsEntry entry host port := by
  intro agree
  cases misread with
  | signed front host digits opening closing port around some? spells same =>
      have accepted : hostAndPort? entry = some (host, port) :=
        hostAndPort?_eq_some_iff.2 ⟨some?, front, '+' :: digits, opening, closing, same, around,
          port?_eq_some_iff.2 (.inr ⟨digits, rfl, spells⟩)⟩
      rw [agree, same] at accepted
      exact not_isEntry_signed spells accepted
  | unpaired front host digits opening closing port around some? missing marked spells same =>
      have accepted : hostAndPort? entry = some (host, port) :=
        hostAndPort?_eq_some_iff.2 ⟨some?, front, digits, opening, closing, same, around,
          port?_eq_some_iff.2 (.inl spells)⟩
      rw [agree, same] at accepted
      exact not_isEntry_unpaired around some? missing marked spells accepted
  | repeated front host digits opening closing port around opens closes several spells same =>
      -- By the grammar, only the outer brackets are left out.
      obtain ⟨more, rfl⟩ := Nat.exists_eq_add_one.2 opens
      obtain ⟨others, rfl⟩ := Nat.exists_eq_add_one.2 closes
      have enclosed : front = '[' :: ((List.replicate more '[' ++
          (host ++ List.replicate others ']')) ++ [']']) := by
        rw [around.same, List.replicate_succ, List.replicate_succ']
        simp
      have isEntry : IsEntry entry (List.replicate more '[' ++
          (host ++ List.replicate others ']')) port := by
        refine .bracketed ?_ digits spells (enclosed ▸ same)
        simp only [ne_eq, List.append_eq_nil_iff, List.replicate_eq_nil_iff]
        omega
      obtain ⟨-, before, behind, ownOpening, ownClosing, sameOther, aroundOther, known⟩ :=
        hostAndPort?_eq_some_iff.1 ((agree _ _).2 isEntry)
      obtain ⟨rfl, -⟩ := append_cons_inj_of_not_mem spells.colon_not_mem
        (colon_not_mem_of_port? known) (same.symm.trans sameOther)
      have lengths := congrArg List.length
        (around.withoutBrackets_eq.symm.trans aroundOther.withoutBrackets_eq)
      simp only [List.length_append, List.length_replicate] at lengths
      omega

end Reading

theorem read_eq_ok_iff {entry : String} {timestamp : Int64} {address : PeerAddress} :
    read entry timestamp = .ok address ↔
      ∃ host port, hostAndPort? entry.toList = some (host, port) ∧
        address = .fresh (.direct (String.ofList host) port) .full timestamp := by
  unfold read
  cases hostAndPort? entry.toList with
  | none => simp
  | some parts =>
      obtain ⟨host, port⟩ := parts
      simp only [Except.ok.injEq, Option.some.injEq, Prod.mk.injEq, and_assoc, exists_and_left,
        exists_eq_left', eq_comm]

/-- An address tells the host and the port that it was made of. -/
theorem fresh_direct_inj {host other : List Char} {port number : UInt16} {timestamp : Int64}
    (same : PeerAddress.fresh (.direct (String.ofList host) port) .full timestamp =
      .fresh (.direct (String.ofList other) number) .full timestamp) :
    host = other ∧ port = number := by
  obtain ⟨hosts, ports⟩ := Endpoint.direct.inj (congrArg PeerAddress.endpoint same)
  exact ⟨String.ofList_injective hosts, ports⟩

/-- Exactly the entries of the grammar are read, each as the direct address of its host and port,
unless the entry is misread. -/
theorem read_iff_isEntry_iff_not_misread (entry : String) (timestamp : Int64) :
    (∀ address, read entry timestamp = .ok address ↔
        ∃ host port, IsEntry entry.toList host port ∧
          address = .fresh (.direct (String.ofList host) port) .full timestamp) ↔
      ¬ Misread entry.toList := by
  simp only [read_eq_ok_iff]
  constructor
  · intro agree misread
    refine misread.disagree fun host port => ⟨fun accepted => ?_, fun isEntry => ?_⟩
    · obtain ⟨other, number, isEntry, same⟩ := (agree _).1 ⟨host, port, accepted, rfl⟩
      obtain ⟨rfl, rfl⟩ := fresh_direct_inj same
      exact isEntry
    · obtain ⟨other, number, accepted, same⟩ := (agree _).2 ⟨host, port, isEntry, rfl⟩
      obtain ⟨rfl, rfl⟩ := fresh_direct_inj same
      exact accepted
  · intro fair address
    constructor
    · rintro ⟨host, port, accepted, same⟩
      exact ⟨host, port, (isEntry_or_misread accepted).resolve_right fair, same⟩
    · rintro ⟨host, port, isEntry, same⟩
      exact ⟨host, port, isEntry.accepted.resolve_right fair, same⟩

/-- A host with colons loses what stands behind the last one, a lone bracket is left out, a plus
sign is passed over, and so is a second pair of brackets. -/
theorem entries_misread :
    (read "2001:db8::1" 0 = .ok (.fresh (.direct "2001:db8:" 1) .full 0) ∧
        ∀ host port, ¬ IsEntry "2001:db8::1".toList host port) ∧
      (read "[::1:80" 0 = .ok (.fresh (.direct "::1" 80) .full 0) ∧
        ∀ host port, ¬ IsEntry "[::1:80".toList host port) ∧
      (read "host:+80" 0 = .ok (.fresh (.direct "host" 80) .full 0) ∧
        ∀ host port, ¬ IsEntry "host:+80".toList host port) ∧
      read "[[x]]:80" 0 = .ok (.fresh (.direct "x" 80) .full 0) ∧
        IsEntry "[[x]]:80".toList "[x]".toList 80 := by
  have one : SpellsPort "1".toList 1 := spellsPort_iff.2 (by decide)
  have eighty : SpellsPort "80".toList 80 := spellsPort_iff.2 (by decide)
  refine ⟨⟨by decide, fun host port => ?_⟩, ⟨by decide, fun host port => ?_⟩,
    ⟨by decide, fun host port => ?_⟩, by decide, ?_⟩
  · exact @not_isEntry_unpaired "2001:db8:".toList "2001:db8:".toList "1".toList 0 0 1 host port
      ⟨by decide, by decide, by decide⟩ (by decide) (.inl rfl) (by simp) one
  · exact @not_isEntry_unpaired "[::1".toList "::1".toList "80".toList 1 0 80 host port
      ⟨by decide, by decide, by decide⟩ (by decide) (.inr rfl) (by simp) eighty
  · exact @not_isEntry_signed "host".toList "80".toList 80 host port eighty
  · exact .bracketed (by decide) "80".toList eighty (by decide)

end PeerOverlay.Bootstrap
