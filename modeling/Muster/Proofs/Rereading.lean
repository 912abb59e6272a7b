import Muster.Proofs.Serving

/-!
# Addresses that are read again

The text of an address that was read is read as the same address, on the machine on which it was read. The port
keeps its digits, the host is in capitals and has no blanks at its ends; and the machine's own name, which stands
for `localhost`, is read as it is.
-/

namespace Muster

namespace Address

/-- A host as it stands in an address: in capitals, without blanks at its ends, and without a colon. -/
structure IsHost (host : String) : Prop where
  capitals : Text.upper host = host
  trimmed : Text.trim host = host
  colon : ':' ∉ host.toList
  nonempty : host ≠ ""

theorem readPort_text (a : Address) (address : String) :
    readPort address [Nat.toDigits 10 a.port.toNat] = .ok a.port := by
  have hblank : Text.trimmed (Nat.toDigits 10 a.port.toNat) = Nat.toDigits 10 a.port.toNat :=
    Text.trimmed_of_forall fun _ hc => Text.not_isBlank_of_isDigit (Text.isDigit_of_mem_toDigits hc)
  have hport : a.port.toNat ≤ 65535 := Nat.le_of_lt_succ a.port.toNat_lt
  simp only [readPort, hblank, Text.unsigned_toDigits hport, UInt16.ofNat_toNat]

/-- The text of an address is read as that address, unless its host stands for another one. -/
theorem parse_text {a : Address} {localName : String} (h : IsHost a.host)
    (hown : a.host = "LOCALHOST" → Text.upper localName = "LOCALHOST") : parse a.text localName = .ok a := by
  have hdigits : ':' ∉ Nat.toDigits 10 a.port.toNat := Text.not_mem_toDigits (by decide) _
  have hsplit : Text.split ':' a.text.toList = [a.host.toList, Nat.toDigits 10 a.port.toNat] := by
    rw [toList_text, Text.split_append, Text.split_of_not_mem h.colon, Text.split_of_not_mem hdigits]
    rfl
  have hhost : String.ofList (Text.uppercase (Text.trimmed a.host.toList)) = a.host := by
    rw [← Text.toList_trim, h.trimmed, ← Text.toList_upper, h.capitals, String.ofList_toList]
  have hlocal : (if a.host = "LOCALHOST" then Text.upper localName else a.host) = a.host := by
    split
    · rename_i heq
      rw [hown heq, heq]
    · rfl
  unfold parse
  simp only [hsplit, hhost, if_neg h.nonempty, readPort_text, hlocal]

variable {address localName : String} {a : Address}

/-- Nothing is no host. -/
theorem ne_empty_of_parse {name rest : String} (h : parse (name ++ ":" ++ rest) localName = .ok a) : name ≠ "" := by
  rintro rfl
  have hsplit : Text.split ':' ("" ++ ":" ++ rest).toList = [] :: Text.split ':' rest.toList := by
    simp [Text.split]
  unfold parse at h
  rw [hsplit] at h
  split at h
  · cases h
  · cases h
  · rename_i hpieces
    cases hpieces
    cases h

/-- An address that was read on a machine whose own name is a host has a host. -/
theorem isHost_of_parse (hlocal : IsHost localName) (h : parse address localName = .ok a) : IsHost a.host := by
  have hcapitals := upper_host_of_parse h
  have hcolon := colon_not_mem_host h hlocal.colon
  rcases host_of_parse h with hhost | ⟨piece, -, hhost, hne, -⟩
  · rw [hlocal.capitals] at hhost
    rw [hhost]
    exact hlocal
  · refine ⟨hcapitals, ?_, hcolon, hne⟩
    rw [hhost, Text.trim, String.toList_ofList, Text.trimmed_uppercase, Text.trimmed_trimmed]

/-- An address is read again as it was read. -/
theorem parse_text_of_parse (hlocal : IsHost localName) (h : parse address localName = .ok a) :
    parse a.text localName = .ok a := by
  refine parse_text (isHost_of_parse hlocal h) fun heq => ?_
  rcases host_of_parse h with hhost | ⟨_, -, -, -, hother⟩
  · rw [← hhost, heq]
  · exact absurd heq hother

end Address

/-! ### The hosts of nodes -/

namespace NodeConfig

/-- What a node can be started with: it is called at its name, or at an address that was read with that name as
the machine's own. -/
def Made (config : NodeConfig) : Prop :=
  ∃ name port dataDir named, new name port dataDir = .ok named ∧
    (config.host = named.host ∨ ∃ address, Address.parse address name = .ok config.host)

open CommandLine.Program (nodeConfig colon_of_config)

theorem made_of_nodeConfig {localName file : String} {options : CommandLine.StartOptions} {config : NodeConfig}
    (h : nodeConfig localName file options = .ok config) : config.Made := by
  unfold nodeConfig at h
  simp only [bind, Except.bind] at h
  split at h
  · cases h
  · rename_i named hnew
    refine ⟨_, _, _, named, hnew, ?_⟩
    cases hopt : options.host with
    | none =>
      rw [hopt] at h
      cases h
      exact .inl rfl
    | some address =>
      rw [hopt] at h
      simp only at h
      split at h
      · cases h
      · rename_i host hparse
        cases h
        exact .inr ⟨address, hparse⟩

/-- A node is called by its name where no other address is given, and the name is not empty. -/
theorem parse_of_new {name dataDir : String} {port : UInt16} {named : NodeConfig}
    (h : new name port dataDir = .ok named) :
    (∃ address, Address.parse address (Text.upper name) = .ok named.host) ∧ Text.upper name ≠ "" := by
  unfold new at h
  simp only at h
  split at h
  · cases h
  · rename_i host hparse
    cases h
    refine ⟨⟨_, hparse⟩, fun hempty => ?_⟩
    exact Address.ne_empty_of_parse hparse hempty

/-- The host of a node is one of an address, if it has no blanks at its ends. -/
theorem Made.isHost {config : NodeConfig} (h : config.Made)
    (htrim : Text.trim config.host.host = config.host.host) : Address.IsHost config.host.host := by
  obtain ⟨name, port, dataDir, named, hnew, hhost⟩ := h
  obtain ⟨hcolon, hnamed⟩ := colon_of_config hnew
  obtain ⟨⟨called, hcalled⟩, hname⟩ := parse_of_new hnew
  have hparse : ∃ address localName, Address.parse address localName = .ok config.host ∧
      Text.upper localName = Text.upper name ∧ ':' ∉ localName.toList := by
    rcases hhost with hhost | ⟨address, hparse⟩
    · rw [hhost]
      exact ⟨called, _, hcalled, Text.upper_upper name, Address.colon_not_mem_upper hcolon⟩
    · exact ⟨address, name, hparse, rfl, hcolon⟩
  obtain ⟨address, localName, hparse, hupper, hlocal⟩ := hparse
  refine ⟨Address.upper_host_of_parse hparse, htrim, Address.colon_not_mem_host hparse hlocal, ?_⟩
  rcases Address.host_of_parse hparse with hhost | ⟨_, -, -, hne, -⟩
  · rw [hhost, hupper]
    exact hname
  · exact hne

end NodeConfig

end Muster
