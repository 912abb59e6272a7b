import Muster.Liveness
import Muster.Proofs.Capital
import Muster.Proofs.Cutting
import Muster.Proofs.Decimal

/-!
# Names on display

A name that a node claims has no parenthesis, so its display name tells both parts that it was made of: the
name, and the address to call.
-/

namespace Muster

namespace Address

/-- The name of a node, read off a display name. -/
def nameOf (display : String) : String := String.ofList (display.toList.takeWhile (· ≠ '('))

theorem takeWhile_of_not_mem {s : List Char} (h : '(' ∉ s) (rest : List Char) :
    (s ++ rest).takeWhile (· ≠ '(') = s ++ rest.takeWhile (· ≠ '(') := by
  rw [List.takeWhile_append_of_pos]
  intro c hc
  have hne : c ≠ '(' := fun heq => h (heq ▸ hc)
  simpa using hne

variable {name : String}

/-- A display name is the bare name, or the name and the address in parentheses. -/
theorem toList_displayName (a : Address) (name : String) :
    a.host = Text.upper name ∧ a.port = defaultPort ∧ (a.displayName name) = Text.upper name ∨
      (a.displayName name).toList = (Text.upper name).toList ++ '(' :: (a.text.toList ++ [')']) := by
  unfold displayName
  simp only
  split
  · rename_i hbare
    exact .inl ⟨hbare.1, hbare.2, rfl⟩
  · exact .inr (by simp)

/-- A display name tells the name that it was made of. -/
theorem nameOf_displayName (a : Address) (h : '(' ∉ (Text.upper name).toList) :
    nameOf (a.displayName name) = Text.upper name := by
  rcases toList_displayName a name with ⟨-, -, hdisplay⟩ | hdisplay
  · have htake := takeWhile_of_not_mem h []
    rw [List.append_nil, List.takeWhile_nil, List.append_nil] at htake
    rw [nameOf, hdisplay, htake, String.ofList_toList]
  · rw [nameOf, hdisplay, takeWhile_of_not_mem h, List.takeWhile_cons_of_neg (by simp), List.append_nil,
      String.ofList_toList]

/-- An address ends with a digit. -/
theorem dropEndWhile_text (a : Address) :
    Text.dropEndWhile (· = ')') (a.text.toList ++ [')']) = a.text.toList := by
  have htext : a.text.toList = a.host.toList ++ ':' :: Nat.toDigits 10 a.port.toNat := by
    simp [text, Nat.repr_eq_ofList_toDigits]
  obtain hnil | ⟨front, last, hdigits⟩ := List.eq_nil_or_concat (Nat.toDigits 10 a.port.toNat)
  · exact absurd hnil Nat.toDigits_ne_nil
  · have hlast : last ≠ ')' := by
      rintro rfl
      have hnot : ')' ∉ Nat.toDigits 10 a.port.toNat := Text.not_mem_toDigits (by decide) _
      exact hnot (by simp [hdigits])
    rw [htext, hdigits, Text.dropEndWhile]
    simp [hlast]

/-- A display name tells the address that it was made of. -/
theorem ofDisplayName_displayName (a : Address) (h : '(' ∉ (Text.upper name).toList) :
    ofDisplayName (a.displayName name) = a.text := by
  rcases toList_displayName a name with ⟨hhost, hport, hdisplay⟩ | hdisplay
  · rw [ofDisplayName, hdisplay, Text.splitOnce?_eq_none h, text, hhost, hport]
  · rw [ofDisplayName, hdisplay, Text.splitOnce?_append h]
    simp only
    rw [dropEndWhile_text, String.ofList_toList]

end Address

namespace Liveness

/-- A claimed name is in capitals, and has no parenthesis. -/
theorem claimedName_eq_ok {nodename name : String} (h : claimedName nodename = .ok name) :
    '(' ∉ name.toList ∧ Text.upper name = name := by
  unfold claimedName at h
  split at h
  · cases h
  · rename_i hplain
    split at h
    · cases h
    · rw [Except.ok.injEq] at h
      subst h
      refine ⟨?_, Text.upper_upper _⟩
      intro hmem
      rw [Text.toList_upper, Text.toList_trim] at hmem
      have hname := (Text.trimmed_sublist _).subset (Text.parenthesis_of_mem_uppercase hmem)
      simp [hname] at hplain

/-- A heartbeat is accepted exactly if its name and its address are, and is noted under the display name. -/
theorem heartbeat_eq_ok_iff {l l' : Liveness} {timeout : Int} {nodename host display : String} :
    l.heartbeat timeout nodename host = .ok (l', display) ↔
      ∃ name address, claimedName nodename = .ok name ∧ Address.parse host l.localName = .ok address ∧
        display = address.displayName name ∧ l' = l.note timeout display name address.text := by
  unfold heartbeat
  cases claimedName nodename with
  | error fault => simp [bind, Except.bind]
  | ok name =>
    cases Address.parse host l.localName with
    | error fault => simp [bind, Except.bind]
    | ok address =>
      simp only [bind, Except.bind, pure, Except.pure, Except.ok.injEq, Prod.mk.injEq]
      constructor
      · rintro ⟨rfl, rfl⟩
        exact ⟨name, address, rfl, rfl, rfl, rfl⟩
      · rintro ⟨_, _, rfl, rfl, rfl, rfl⟩
        exact ⟨rfl, rfl⟩

/-- What a heartbeat does that is accepted: it is noted under the display name, which tells the claimed name and
the address. -/
theorem heartbeat_eq_ok {l l' : Liveness} {timeout : Int} {nodename host display : String}
    (h : l.heartbeat timeout nodename host = .ok (l', display)) :
    claimedName nodename = .ok (Address.nameOf display) ∧
      l' = l.note timeout display (Address.nameOf display) (Address.ofDisplayName display) := by
  obtain ⟨name, address, hname, -, rfl, rfl⟩ := heartbeat_eq_ok_iff.1 h
  obtain ⟨hplain, hupper⟩ := claimedName_eq_ok hname
  rw [← hupper] at hplain
  rw [Address.nameOf_displayName address hplain, Address.ofDisplayName_displayName address hplain, hupper]
  exact ⟨hname, rfl⟩

end Liveness

end Muster
