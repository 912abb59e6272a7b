import Muster.CommandLine.Program
import Muster.Dispatch.Resolve
import Muster.Proofs.DisplayName
import Muster.Proofs.Trimming

/-!
# Display names as keys

The name under which a node is shown is its own key: it is in capitals, and no end of it is blank. It is
never the address of a node, since a bare name has no colon and any other one ends with a parenthesis. So
what is looked up under such a name is that node, whatever other nodes are ready.
-/

namespace Muster

namespace Address

/-! ### Hosts -/

/-- The host of an address that was read is a piece of the text in capitals, or the machine itself. -/
theorem host_of_parse {address localName : String} {a : Address} (h : parse address localName = .ok a) :
    a.host = Text.upper localName ∨
      ∃ piece, ':' ∉ piece ∧ a.host = String.ofList (Text.uppercase (Text.trimmed piece)) ∧
        a.host ≠ "" ∧ a.host ≠ "LOCALHOST" := by
  unfold parse at h
  split at h
  · cases h
  · cases h
  · rename_i name rest _ hsplit
    have hpiece : ':' ∉ name := Text.not_mem_of_mem_split (by rw [hsplit]; simp)
    simp only at h
    split at h
    · cases h
    · rename_i hsome
      split at h
      · cases h
      · cases h
        simp only
        split
        · exact .inl rfl
        · rename_i hother
          exact .inr ⟨name, hpiece, rfl, hsome, hother⟩

theorem upper_host_of_parse {address localName : String} {a : Address} (h : parse address localName = .ok a) :
    Text.upper a.host = a.host := by
  rcases host_of_parse h with hhost | ⟨piece, -, hhost, -, -⟩
  · rw [hhost, Text.upper_upper]
  · rw [hhost, Text.upper, String.toList_ofList, Text.uppercase_uppercase]

theorem colon_not_mem_upper {name : String} (h : ':' ∉ name.toList) : ':' ∉ (Text.upper name).toList := by
  rw [Text.toList_upper]
  exact fun hmem => h (Text.colon_of_mem_uppercase hmem)

/-- A host has no colon if the machine's own name has none. -/
theorem colon_not_mem_host {address localName : String} {a : Address} (h : parse address localName = .ok a)
    (hlocal : ':' ∉ localName.toList) : ':' ∉ a.host.toList := by
  rcases host_of_parse h with hhost | ⟨piece, hpiece, hhost, -, -⟩
  · rw [hhost]
    exact colon_not_mem_upper hlocal
  · rw [hhost, String.toList_ofList]
    exact fun hmem => hpiece ((Text.trimmed_sublist _).subset (Text.colon_of_mem_uppercase hmem))

/-! ### Names on display -/

/-- A node that calls itself `name` and reports from `a`, as a head node takes it. -/
structure Reports (a : Address) (name : String) : Prop where
  host : Text.upper a.host = a.host
  colon : ':' ∉ a.host.toList
  capitals : Text.upper name = name
  trimmed : Text.trim name = name
  nonempty : name ≠ ""
  parenthesis : '(' ∉ name.toList

/-- A node is shown under this name. -/
def IsShown (d : String) : Prop := ∃ a name, Reports a name ∧ d = a.displayName name

theorem upperChar_of_isDigit {c : Char} (h : Text.isDigit c) : Text.upperChar c = [c] := by
  have hall : ∀ n < 128, Text.isDigit (Char.ofNat n) → Text.upperChar (Char.ofNat n) = [Char.ofNat n] := by
    decide +kernel
  have hascii : c.toNat < 128 := by
    rw [Text.isDigit_eq, Char.isDigit] at h
    simp only [ge_iff_le, Bool.and_eq_true, decide_eq_true_eq] at h
    have : c.toNat ≤ 57 := h.2
    omega
  have hc := hall c.toNat hascii
  rw [Char.ofNat_toNat] at hc
  exact hc h

theorem toList_text (a : Address) : a.text.toList = a.host.toList ++ ':' :: Nat.toDigits 10 a.port.toNat := by
  simp [text, Nat.repr_eq_ofList_toDigits]

theorem uppercase_text {a : Address} (h : Text.upper a.host = a.host) :
    Text.uppercase a.text.toList = a.text.toList := by
  have hhost : Text.uppercase a.host.toList = a.host.toList := by rw [← Text.toList_upper, h]
  have hdigits : Text.uppercase (Nat.toDigits 10 a.port.toNat) = Nat.toDigits 10 a.port.toNat :=
    Text.uppercase_of_forall fun c hc => upperChar_of_isDigit (Text.isDigit_of_mem_toDigits hc)
  have hcolon : Text.upperChar ':' = [':'] := by decide +kernel
  rw [toList_text, Text.uppercase_append, Text.uppercase_cons, hhost, hcolon, hdigits]
  rfl

/-- An address ends with a digit. -/
theorem getLast?_text (a : Address) : ∃ c ∈ a.text.toList.getLast?, Text.isDigit c := by
  obtain hnil | ⟨front, last, hdigits⟩ := List.eq_nil_or_concat (Nat.toDigits 10 a.port.toNat)
  · exact absurd hnil Nat.toDigits_ne_nil
  · refine ⟨last, ?_, Text.isDigit_of_mem_toDigits (n := a.port.toNat) (by simp [hdigits])⟩
    simp [toList_text, hdigits, List.getLast?_cons]

namespace IsShown

variable {d r : String}

/-- The name is in capitals and trimmed, so it is its own key. -/
theorem key_eq (h : IsShown d) : Dispatch.key d = d := by
  obtain ⟨a, name, hreports, rfl⟩ := h
  have hname : (Text.upper name).toList = name.toList := by rw [hreports.capitals]
  have hupper : Text.uppercase name.toList = name.toList := by rw [← Text.toList_upper, hreports.capitals]
  rw [Dispatch.key]
  rcases toList_displayName a name with ⟨-, -, hdisplay⟩ | hdisplay
  · rw [hdisplay, hreports.capitals, hreports.trimmed, hreports.capitals]
  · rw [hname] at hdisplay
    have htrim : Text.trimmed (a.displayName name).toList = (a.displayName name).toList := by
      refine Text.trimmed_of_ends ?_ ?_
      · intro c hc
        refine Text.head?_trimmed (s := name.toList) (c := c) ?_
        rw [← Text.toList_trim, hreports.trimmed]
        cases hlist : name.toList with
        | nil => exact absurd (String.toList_eq_nil_iff.1 hlist) hreports.nonempty
        | cons first rest => simpa [hdisplay, hlist] using hc
      · intro c hc
        have hlast : c = ')' := by simpa [hdisplay, List.getLast?_cons, eq_comm] using hc
        rw [hlast]
        decide
    have hcapitals : Text.uppercase (a.displayName name).toList = (a.displayName name).toList := by
      have hopen : Text.upperChar '(' = ['('] := by decide +kernel
      have hclose : Text.uppercase [')'] = [')'] := by decide +kernel
      rw [hdisplay, Text.uppercase_append, Text.uppercase_cons, Text.uppercase_append, hupper,
        uppercase_text hreports.host, hopen, hclose]
      rfl
    rw [Text.trim, htrim, String.ofList_toList, Text.upper, hcapitals, String.ofList_toList]

theorem ne_empty (h : IsShown d) : d ≠ "" := by
  obtain ⟨a, name, hreports, rfl⟩ := h
  rcases toList_displayName a name with ⟨-, -, hdisplay⟩ | hdisplay
  · rw [hdisplay, hreports.capitals]
    exact hreports.nonempty
  · intro hempty
    simp [hempty] at hdisplay

/-- No node is shown under the address of a node. -/
theorem ne_ofDisplayName (hd : IsShown d) (hr : IsShown r) : ofDisplayName r ≠ d := by
  obtain ⟨a, name, hreports, rfl⟩ := hd
  obtain ⟨b, other, hother, rfl⟩ := hr
  have hplain : '(' ∉ (Text.upper other).toList := by
    rw [hother.capitals]
    exact hother.parenthesis
  rw [ofDisplayName_displayName b hplain]
  intro heq
  rcases toList_displayName a name with ⟨hhost, -, hdisplay⟩ | hdisplay
  · refine hreports.colon ?_
    rw [hhost, ← hdisplay, ← heq, toList_text]
    simp
  · obtain ⟨c, hc, hdigit⟩ := getLast?_text b
    rw [heq, hdisplay] at hc
    have hlast : c = ')' := by simpa [List.getLast?_cons, eq_comm] using hc
    rw [hlast] at hdigit
    cases hdigit

end IsShown

end Address

namespace Dispatch

open Address (IsShown)

theorem lookup_eq_some {α β : Type} [BEq α] [LawfulBEq α] {l : List (α × β)} {k : α} {v : β}
    (hmem : (k, v) ∈ l) (hall : ∀ e ∈ l, e.1 = k → e.2 = v) : l.lookup k = some v := by
  induction l with
  | nil => cases hmem
  | cons e rest ih =>
    obtain ⟨j, w⟩ := e
    by_cases hk : k = j
    · have hw : w = v := hall (j, w) (by simp) hk.symm
      simp [hk, hw]
    · have hrest : (k, v) ∈ rest := by
        rcases List.mem_cons.1 hmem with heq | hrest
        · exact absurd (congrArg Prod.fst heq) hk
        · exact hrest
      rw [List.lookup_cons, beq_false_of_ne hk]
      exact ih hrest fun e he => hall e (List.mem_cons_of_mem _ he)

variable {ready nodes : List String} {d : String}

theorem mem_names {e : String × String} :
    e ∈ names ready ↔ e.2 ∈ ready ∧ (e.1 = e.2 ∨ e.1 = Address.ofDisplayName e.2) := by
  simp only [names, List.mem_flatMap, List.mem_cons, List.not_mem_nil, or_false, Prod.ext_iff]
  constructor
  · rintro ⟨node, hnode, ⟨hkey, rfl⟩ | ⟨hkey, rfl⟩⟩
    · exact ⟨hnode, .inl hkey⟩
    · exact ⟨hnode, .inr hkey⟩
  · rintro ⟨hnode, hkey | hkey⟩
    · exact ⟨e.2, hnode, .inl ⟨hkey, rfl⟩⟩
    · exact ⟨e.2, hnode, .inr ⟨hkey, rfl⟩⟩

/-- What is found is a ready node, by its display name or by its address. -/
theorem mem_of_lookUp {name : String} (h : lookUp ready name = some d) :
    d ∈ ready ∧ (name = d ∨ name = Address.ofDisplayName d) := by
  obtain ⟨front, back, hlist, -⟩ := List.lookup_eq_some_iff.1 h
  have hmem : (name, d) ∈ names ready := List.mem_reverse.1 (by rw [hlist]; simp)
  exact mem_names.1 hmem

/-- What is found under the name of a shown node is that node. -/
theorem eq_of_mem_names (hready : ∀ node ∈ ready, IsShown node) (hd : IsShown d) {e : String × String}
    (he : e ∈ names ready) (hkey : e.1 = d) : e.2 = d ∧ d ∈ ready := by
  obtain ⟨hnode, hname | haddress⟩ := mem_names.1 he
  · have hself : e.2 = d := hname.symm.trans hkey
    exact ⟨hself, hself ▸ hnode⟩
  · exact absurd (haddress.symm.trans hkey) (hd.ne_ofDisplayName (hready e.2 hnode))

/-- A shown node is found under its name if it is ready, whatever other nodes are. -/
theorem lookUp_shown (hready : ∀ node ∈ ready, IsShown node) (hd : IsShown d) :
    lookUp ready d = if d ∈ ready then some d else none := by
  unfold lookUp
  split
  · rename_i hmem
    have hpair : (d, d) ∈ (names ready).reverse :=
      List.mem_reverse.2 (mem_names.2 ⟨hmem, .inl rfl⟩)
    exact lookup_eq_some hpair fun e he hkey => (eq_of_mem_names hready hd (List.mem_reverse.1 he) hkey).1
  · rename_i hmem
    rw [List.lookup_eq_none_iff]
    intro e he
    rw [bne_iff_ne]
    intro hkey
    exact hmem (eq_of_mem_names hready hd (List.mem_reverse.1 he) hkey.symm).2

theorem eraseDups_of_nodup {l : List String} (h : l.Nodup) : l.eraseDups = l := by
  induction l with
  | nil => rfl
  | cons a rest ih =>
    obtain ⟨ha, hrest⟩ := List.nodup_cons.1 h
    have hfilter : (rest.filter fun b => !b == a) = rest := by
      rw [List.filter_eq_self]
      intro b hb
      have hne : b ≠ a := fun heq => ha (heq ▸ hb)
      simp [hne]
    rw [List.eraseDups_cons, hfilter, ih hrest]

/-- What is kept where it first comes is kept in that order. -/
theorem pairwise_idxOf_eraseDups (l : List String) : l.eraseDups.Pairwise fun a b => l.idxOf a < l.idxOf b := by
  induction l using List.reverseRecOn with
  | nil => simp
  | append_singleton l last ih =>
    have hfront {a : String} (ha : a ∈ l.eraseDups) : (l ++ [last]).idxOf a = l.idxOf a := by
      rw [List.idxOf_append, if_pos (List.mem_eraseDups.1 ha)]
    have hpairs : l.eraseDups.Pairwise fun a b => (l ++ [last]).idxOf a < (l ++ [last]).idxOf b := by
      apply ih.imp_of_mem
      intro a b ha hb hab
      rw [hfront ha, hfront hb]
      exact hab
    by_cases hlast : last ∈ l
    · have hsame : (l ++ [last]).eraseDups = l.eraseDups := by
        simp [List.eraseDups_append, List.removeAll, hlast]
      rw [hsame]
      exact hpairs
    · have hadded : (l ++ [last]).eraseDups = l.eraseDups ++ [last] := by
        simp [List.eraseDups_append, List.removeAll, hlast, List.eraseDups_cons]
      rw [hadded, List.pairwise_append]
      refine ⟨hpairs, List.pairwise_singleton _ _, ?_⟩
      intro a ha b hb
      have hbehind : (l ++ [last]).idxOf b = l.length := by
        rw [List.mem_singleton.1 hb, List.idxOf_append, if_neg hlast]
        simp
      rw [hfront ha, hbehind]
      exact List.idxOf_lt_length_of_mem (List.mem_eraseDups.1 ha)

theorem nodup_eraseDups (l : List String) : l.eraseDups.Nodup := by
  apply (pairwise_idxOf_eraseDups l).imp
  rintro a b hlt rfl
  exact Nat.lt_irrefl _ hlt

theorem filterMap_eq_self {α : Type} {f : α → Option α} {l : List α} (h : ∀ a ∈ l, f a = some a) :
    l.filterMap f = l := by
  induction l with
  | nil => rfl
  | cons a rest ih =>
    rw [List.filterMap_cons_some (h a (by simp)), ih fun b hb => h b (List.mem_cons_of_mem _ hb)]

/-- Shown nodes that are named one by one are taken as they are named, and if one is not ready the request is
refused. -/
theorem resolveNamed_shown (hready : ∀ node ∈ ready, IsShown node) (hnodes : ∀ node ∈ nodes, IsShown node)
    (hnodup : nodes.Nodup) :
    resolveNamed ready nodes =
      if ∀ node ∈ nodes, node ∈ ready then .ok nodes
      else .error (.unknownNodes (nodes.filter fun node => node ∉ ready)) := by
  have hkey (node : String) (hnode : node ∈ nodes) : key node = node := (hnodes node hnode).key_eq
  have hwanted : (nodes.filter fun r => key r ≠ "") = nodes := by
    rw [List.filter_eq_self]
    intro node hnode
    simp [hkey node hnode, (hnodes node hnode).ne_empty]
  have hfound (node : String) (hnode : node ∈ nodes) :
      lookUp ready (key node) = if node ∈ ready then some node else none := by
    rw [hkey node hnode, lookUp_shown hready (hnodes node hnode)]
  have hunknown : (nodes.filter fun r => (lookUp ready (key r)).isNone) =
      nodes.filter fun node => node ∉ ready := by
    refine List.filter_congr fun node hnode => ?_
    rw [hfound node hnode]
    split <;> simp_all
  rw [resolveNamed]
  simp only [hwanted, hunknown]
  split
  · rename_i hnone
    have hall : ∀ node ∈ nodes, node ∈ ready := by
      intro node hnode
      have := List.filter_eq_nil_iff.1 hnone node hnode
      simpa using this
    have hself : nodes.filterMap (fun r => lookUp ready (key r)) = nodes :=
      filterMap_eq_self fun node hnode => by rw [hfound node hnode, if_pos (hall node hnode)]
    rw [hself, eraseDups_of_nodup hnodup, if_pos hall]
  · rename_i hsome
    refine (if_neg fun hall => hsome ?_).symm
    rw [List.filter_eq_nil_iff]
    intro node hnode
    simp [hall node hnode]

end Dispatch

end Muster
