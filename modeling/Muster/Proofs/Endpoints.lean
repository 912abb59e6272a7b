import Muster.Proofs.Identity
import Muster.Proofs.Membership
import Muster.Proofs.Numerals
import Muster.Proofs.Rereading

/-!
# Spellings of an address

An address can be typed in many ways: in any letter case, with blanks around its parts, with zeros or a plus sign
before the port or without a port at all, and as `localhost` on the machine itself. All of them are read as one
address, whose text is read as that address on every machine. So there is one key for each address.
-/

namespace Muster

namespace Text

variable {s : List Char} {hi n m : Nat}

/-! ### Unsigned numbers -/

/-- What is read are digits that spell a number within the bound. -/
theorem naturalWithin_eq_ok (hn : n ≤ hi) (h : naturalWithin hi n s = .ok m) :
    (∀ c ∈ s, isDigit c) ∧ digitsValue n s = m ∧ m ≤ hi := by
  induction s generalizing n with
  | nil =>
    cases h
    exact ⟨by simp, rfl, hn⟩
  | cons c rest ih =>
    rw [naturalWithin] at h
    split at h
    · cases h
    · rename_i d hd
      split at h
      · rename_i hle
        obtain ⟨hdigits, hvalue, hm⟩ := ih hle h
        have hc : isDigit c := by rw [isDigit, hd]; rfl
        refine ⟨List.forall_mem_cons.2 ⟨hc, hdigits⟩, ?_, hm⟩
        rw [digitsValue, hd, Option.getD_some, hvalue]
      · cases h

theorem naturalWithin_eq_ok_iff : naturalWithin hi 0 s = .ok m ↔
    (∀ c ∈ s, c.isDigit) ∧ Nat.ofDigitChars 10 s 0 = m ∧ m ≤ hi := by
  simp only [← isDigit_eq]
  constructor
  · intro h
    obtain ⟨hdigits, hvalue, hm⟩ := naturalWithin_eq_ok (Nat.zero_le hi) h
    exact ⟨hdigits, by rw [← hvalue, digitsValue_eq hdigits], hm⟩
  · rintro ⟨hdigits, rfl, hm⟩
    rw [← digitsValue_eq hdigits] at hm ⊢
    exact naturalWithin_eq hdigits hm

/-- An unsigned number is read of digits behind at most one plus sign. -/
theorem unsigned_eq_ok_iff : unsigned hi s = .ok n ↔ Numeral ['+'] s n ∧ n ≤ hi := by
  constructor
  · intro h
    unfold unsigned at h
    split at h
    · cases h
    · cases h
    · rename_i rest hsign
      obtain ⟨hdigits, rfl, hn⟩ := naturalWithin_eq_ok_iff.1 h
      exact ⟨.plus (by simp) (fun hnil => hsign (by rw [hnil])) hdigits, hn⟩
    · rename_i hne _ _
      obtain ⟨hdigits, rfl, hn⟩ := naturalWithin_eq_ok_iff.1 h
      exact ⟨.plain hne hdigits, hn⟩
  · rintro ⟨h, hn⟩
    generalize hvalue : (n : Int) = value at h
    cases h with
    | plain hne hdigits =>
      have hread : naturalWithin hi 0 s = .ok n :=
        naturalWithin_eq_ok_iff.2 ⟨hdigits, (Int.ofNat.inj hvalue).symm, hn⟩
      have hsign {rest : List Char} (hs : s = '+' :: rest) : False :=
        absurd (hdigits '+' (by simp [hs])) (by decide)
      unfold unsigned
      split
      · exact absurd rfl hne
      · exact (hsign rfl).elim
      · exact (hsign rfl).elim
      · exact hread
    | @plus digits _ hne hdigits =>
      have hread : naturalWithin hi 0 digits = .ok n :=
        naturalWithin_eq_ok_iff.2 ⟨hdigits, (Int.ofNat.inj hvalue).symm, hn⟩
      cases digits with
      | nil => exact absurd rfl hne
      | cons c rest => exact hread
    | minus hsign => simp at hsign

/-! ### Pieces and blanks -/

/-- A text has no separator, or it has pieces before and behind its first one. -/
theorem split_cases (sep : Char) (s : List Char) :
    sep ∉ s ∧ split sep s = [s] ∨
      ∃ front rest, sep ∉ front ∧ s = front ++ sep :: rest ∧ split sep s = front :: split sep rest := by
  by_cases hmem : sep ∈ s
  · obtain ⟨front, rest, rfl, hfront⟩ := List.eq_append_cons_of_mem hmem
    exact .inr ⟨front, rest, hfront, rfl, by rw [split_append, split_of_not_mem hfront]; rfl⟩
  · exact .inl ⟨hmem, split_of_not_mem hmem⟩

theorem mem_dropWhile {p : Char → Bool} {c : Char} (h : c ∈ s) (hc : p c = false) : c ∈ s.dropWhile p := by
  rw [← List.takeWhile_append_dropWhile (p := p) (l := s), List.mem_append] at h
  rcases h with h | h
  · have htaken := List.all_eq_true.1 List.all_takeWhile c h
    rw [hc] at htaken
    cases htaken
  · exact h

/-- Only blanks are cut off. -/
theorem mem_trimmed {c : Char} (h : c ∈ s) (hc : isBlank c = false) : c ∈ trimmed s :=
  List.mem_reverse.2 (mem_dropWhile (List.mem_reverse.2 (mem_dropWhile h hc)) hc)

/-- A numeral has digits and signs. -/
theorem Numeral.isDigit_of_mem {signs : List Char} {value : Int} (h : Numeral signs s value) {c : Char} (hc : c ∈ s) :
    c.isDigit ∨ c ∈ signs := by
  cases h with
  | plain hne hdigits => exact .inl (hdigits c hc)
  | plus hsign hne hdigits | minus hsign hne hdigits =>
    rcases List.mem_cons.1 hc with rfl | hc
    · exact .inr hsign
    · exact .inl (hdigits c hc)

end Text

namespace Address

open Text (Numeral)

/-! ### Spellings -/

/-- What a machine can call itself. -/
structure IsOwnName (name : String) : Prop where
  nonempty : name ≠ ""
  trimmed : Text.trim name = name
  colon : ':' ∉ name.toList
  notLocalhost : Text.upper name ≠ "LOCALHOST"

/-- The host that a name stands for on a machine. -/
def hostOf (localName name : String) : String :=
  if Text.upper (Text.trim name) = "LOCALHOST" then Text.upper localName else Text.upper (Text.trim name)

/-- A text is a name for the host of an address, and then its port, which can be left out where it is the usual
one. -/
inductive Spells (localName : String) (a : Address) : String → Prop
  | usual {name : String} (hname : ':' ∉ name.toList) (hsome : Text.trim name ≠ "")
      (hhost : hostOf localName name = a.host) (hport : a.port = defaultPort) : Spells localName a name
  | given {name port : String} (hname : ':' ∉ name.toList) (hsome : Text.trim name ≠ "")
      (hhost : hostOf localName name = a.host) (hport : Numeral ['+'] (Text.trim port).toList a.port.toNat) :
      Spells localName a (name ++ ":" ++ port)

variable {address text localName : String} {a b : Address}

/-- What is read of a name and what follows its colon, if it has one. -/
theorem parse_of_split {name : String} {rest : List (List Char)}
    (h : Text.split ':' text.toList = name.toList :: rest) (hfew : rest.length ≤ 1) :
    parse text localName = .ok a ↔
      Text.trim name ≠ "" ∧ hostOf localName name = a.host ∧ readPort text rest = .ok a.port := by
  have hhost : String.ofList (Text.uppercase (Text.trimmed name.toList)) = Text.upper (Text.trim name) := by
    rw [Text.upper, Text.toList_trim]
  have hparse : parse text localName =
      if Text.upper (Text.trim name) = "" then .error (.address text .empty)
      else (readPort text rest).map fun port => ⟨hostOf localName name, port⟩ := by
    unfold parse hostOf
    rw [h, ← hhost]
    cases rest with
    | nil => rfl
    | cons port more =>
      have hlast : more = [] := List.eq_nil_of_length_eq_zero (Nat.le_zero.1 (Nat.le_of_succ_le_succ hfew))
      subst hlast
      cases hport : readPort text [port] <;> simp only [hport, Except.map]
  obtain ⟨host, port⟩ := a
  simp only [hparse, Text.upper_eq_empty_iff]
  split
  · rename_i hempty
    simp [hempty]
  · rename_i hsome
    cases readPort text rest <;> simp [Except.map, hsome]

theorem readPort_eq_ok_iff {port : List Char} {p : UInt16} :
    readPort text [port] = .ok p ↔ Numeral ['+'] (Text.trimmed port) p.toNat := by
  have hp : p.toNat ≤ 65535 := Nat.le_of_lt_succ p.toNat_lt
  rw [readPort]
  split
  · rename_i n hread
    obtain ⟨hnumeral, hn⟩ := Text.unsigned_eq_ok_iff.1 hread
    rw [Except.ok.injEq]
    constructor
    · rintro rfl
      rwa [UInt16.toNat_ofNat', Nat.mod_eq_of_lt (Nat.lt_succ_of_le hn)]
    · intro h
      have hsame := Text.unsigned_eq_ok_iff.2 ⟨h, hp⟩
      rw [hread, Except.ok.injEq] at hsame
      rw [hsame, UInt16.ofNat_toNat]
  · rename_i fault hread
    refine ⟨fun h => (by cases h), fun h => ?_⟩
    rw [Text.unsigned_eq_ok_iff.2 ⟨h, hp⟩] at hread
    cases hread

/-- A port has no colon. -/
theorem colon_not_mem_port {port : String} {value : Int} (h : Numeral ['+'] (Text.trim port).toList value) :
    ':' ∉ port.toList := by
  intro hmem
  have htrim : ':' ∈ (Text.trim port).toList := by
    rw [Text.toList_trim]
    exact Text.mem_trimmed hmem (by decide)
  rcases h.isDigit_of_mem htrim with hdigit | hsign
  · cases hdigit
  · simp at hsign

/-- A text is read as an address exactly if it is one of its spellings. -/
theorem parse_eq_ok_iff : parse text localName = .ok a ↔ Spells localName a text := by
  constructor
  · intro h
    rcases Text.split_cases ':' text.toList with ⟨hname, hsplit⟩ | ⟨front, rest, hfront, htext, hsplit⟩
    · obtain ⟨hsome, hhost, hport⟩ := (parse_of_split hsplit (Nat.zero_le 1)).1 h
      exact .usual hname hsome hhost (Except.ok.inj hport).symm
    · have hrest : ':' ∉ rest := by
        have hcount := CommandLine.Program.count_of_parse h
        rw [htext, List.count_append, List.count_cons_self] at hcount
        exact List.count_eq_zero.1 (by omega)
      have hname : front = (String.ofList front).toList := String.toList_ofList.symm
      rw [Text.split_of_not_mem hrest, hname] at hsplit
      obtain ⟨hsome, hhost, hport⟩ := (parse_of_split hsplit (Nat.le_refl 1)).1 h
      have hspelled : text = String.ofList front ++ ":" ++ String.ofList rest :=
        String.toList_inj.1 (by simp [htext])
      rw [hspelled]
      refine .given (by rwa [String.toList_ofList]) hsome hhost ?_
      rw [Text.toList_trim, String.toList_ofList]
      exact readPort_eq_ok_iff.1 hport
  · intro h
    cases h with
    | usual hname hsome hhost hport =>
      exact (parse_of_split (Text.split_of_not_mem hname) (Nat.zero_le 1)).2 ⟨hsome, hhost, by rw [hport, readPort]⟩
    | @given name port hname hsome hhost hport =>
      have hsplit : Text.split ':' (name ++ ":" ++ port).toList = [name.toList, port.toList] := by
        have hlist : (name ++ ":" ++ port).toList = name.toList ++ ':' :: port.toList := by simp
        rw [hlist, Text.split_append, Text.split_of_not_mem hname, Text.split_of_not_mem (colon_not_mem_port hport)]
        rfl
      refine (parse_of_split hsplit (Nat.le_refl 1)).2 ⟨hsome, hhost, readPort_eq_ok_iff.2 ?_⟩
      rwa [← Text.toList_trim]

/-! ### One key for each address -/

/-- A name counts for a machine as it does in capitals. -/
theorem parse_upper (text localName : String) : parse text (Text.upper localName) = parse text localName := by
  simp only [parse, Text.upper_upper]

theorem IsOwnName.isHost (h : IsOwnName localName) : IsHost (Text.upper localName) where
  capitals := Text.upper_upper localName
  trimmed := (Text.trim_upper_eq_iff localName).2 h.trimmed
  colon := colon_not_mem_upper h.colon
  nonempty := fun hempty => h.nonempty ((Text.upper_eq_empty_iff localName).1 hempty)

/-- `localhost` is never left in an address. -/
theorem IsOwnName.host_ne (hlocal : IsOwnName localName) (h : parse address localName = .ok a) :
    a.host ≠ "LOCALHOST" := by
  rcases host_of_parse h with hhost | ⟨_, -, -, -, hother⟩
  · rw [hhost]
    exact hlocal.notLocalhost
  · exact hother

/-- An address that is read on a machine with a name of its own is a host in capitals, without blanks at its ends and
without a colon, and a port. Its text is read as that address on every machine, two texts are read as one address
exactly if their addresses have the same text, and the texts that are read as it are all its spellings. -/
theorem canonical_of_parse (hlocal : IsOwnName localName) (h : parse address localName = .ok a) :
    IsHost a.host ∧ (∀ otherName, parse a.text otherName = .ok a) ∧
      (∀ text otherName b, parse text otherName = .ok b →
        (parse address localName = parse text otherName ↔ a.text = b.text)) ∧
      ∀ text, parse text localName = .ok a ↔ Spells localName a text := by
  have hhost : IsHost a.host := by
    rw [← parse_upper] at h
    exact isHost_of_parse hlocal.isHost h
  refine ⟨hhost, fun otherName => ?_, fun text otherName b hother => ?_, fun text => parse_eq_ok_iff⟩
  · exact parse_text hhost fun heq => absurd heq (hlocal.host_ne h)
  · rw [h, hother, Except.ok.injEq]
    exact ⟨fun hsame => by rw [hsame], text_injective⟩

/-- On the machine itself `localhost` with a long s, blanks, a sign and zeros stands for what its name in mixed letters
stands for. -/
theorem canonical_of_localhost :
    IsOwnName "box7" ∧ parse " localho\u017ft : +0080 " "box7" = .ok ⟨"BOX7", 80⟩ ∧
      (∀ otherName, parse "BOX7:80" otherName = .ok ⟨"BOX7", 80⟩) ∧ parse "bOX7:80" "box7" = .ok ⟨"BOX7", 80⟩ := by
  have hlocal : IsOwnName "box7" := ⟨by decide, by decide +kernel, by decide, by decide +kernel⟩
  have hparse : parse " localho\u017ft : +0080 " "box7" = .ok ⟨"BOX7", 80⟩ := by decide +kernel
  obtain ⟨-, hagain, -, hspells⟩ := canonical_of_parse hlocal hparse
  have hspelled : Spells "box7" ⟨"BOX7", 80⟩ ("bOX7" ++ ":" ++ "80") := by
    have hport : Text.unsigned 65535 (Text.trim "80").toList = .ok 80 := by decide +kernel
    exact .given (by decide) (by decide +kernel) (by decide +kernel) (Text.unsigned_eq_ok_iff.1 hport).1
  exact ⟨hlocal, hparse, hagain, (hspells _).2 hspelled⟩

end Address

end Muster
