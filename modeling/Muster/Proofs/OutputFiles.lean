import Mathlib.Data.List.Nodup
import Muster.Proofs.Identity
import Muster.Proofs.Places

/-!
# The files of two nodes

The output of a node stands in two files of its job's directory, whose names are made of the display name. Names
of nodes may hold slashes and colons. A slash leads out of the directory, and a colon is not told from a dot; without
them two nodes never share a file.
-/

namespace Muster

/-! ### Colons as dots -/

namespace Text

/-- Without colons a text is not changed. -/
theorem map_dot {s : List Char} (h : ':' ∉ s) : s.map dot = s := by
  have hself : ∀ c ∈ s, dot c = id c := fun c hc => if_neg (ne_of_mem_of_not_mem hc h)
  rw [List.map_congr_left hself, List.map_id]

/-- What has no separator stands behind the last one of a text that it ends. -/
theorem exists_of_append_eq {sep : Char} {s last front rest : List Char} (h : s ++ last = front ++ sep :: rest)
    (hlast : sep ∉ last) : ∃ middle, s = front ++ sep :: middle ∧ rest = middle ++ last := by
  rcases List.append_eq_append_iff.1 h with ⟨more, -, hmore⟩ | ⟨more, hs, hmore⟩
  · exact absurd (by simp [hmore]) hlast
  · cases more with
    | nil =>
      rw [List.nil_append] at hmore
      exact absurd (by simp [← hmore]) hlast
    | cons c middle =>
      obtain ⟨rfl, hrest⟩ := List.cons.inj hmore
      exact ⟨middle, hs, hrest⟩

end Text

/-! ### File names of addresses and of nodes -/

namespace Address

theorem toList_fileName {a : Address} (h : ':' ∉ a.host.toList) :
    a.fileName.toList = a.host.toList ++ '.' :: Nat.toDigits 10 a.port.toNat := by
  have hdigits : ':' ∉ Nat.toDigits 10 a.port.toNat := Text.not_mem_toDigits (by decide) _
  rw [fileName, Text.toList_dotted, toList_text, List.map_append, List.map_cons, Text.map_dot h,
    Text.map_dot hdigits]
  rfl

theorem fileName_injective {a b : Address} (ha : ':' ∉ a.host.toList) (hb : ':' ∉ b.host.toList)
    (h : a.fileName = b.fileName) : a = b :=
  eq_of_append_digits '.' (by decide) (by rw [← toList_fileName ha, ← toList_fileName hb, h])

/-- A node as it is shown whose name and host have no colon. -/
structure Uncoloned (a : Address) (name : String) : Prop where
  host : ':' ∉ a.host.toList
  claim : ':' ∉ (Text.upper name).toList
  parenthesis : '(' ∉ (Text.upper name).toList

variable {a b : Address} {name other : String}

/-- The name in a file name is followed by its end, or by the address in parentheses. -/
theorem toList_dotted_displayName (h : Uncoloned a name) :
    (Text.dotted (a.displayName name)).toList = (Text.upper name).toList ∧ a.displayName name = Text.upper name ∨
      (Text.dotted (a.displayName name)).toList =
        (Text.upper name).toList ++ '(' :: (a.fileName.toList ++ [')']) := by
  rcases toList_displayName a name with ⟨-, -, hbare⟩ | hfull
  · rw [hbare, Text.toList_dotted, Text.map_dot h.claim]
    exact .inl ⟨rfl, rfl⟩
  · refine .inr ?_
    rw [Text.toList_dotted, hfull, List.map_append, Text.map_dot h.claim, fileName, Text.toList_dotted]
    simp [Text.dot]

/-- Without colons a node is told by its file name. -/
theorem displayName_eq_of_dotted (ha : Uncoloned a name) (hb : Uncoloned b other)
    (h : Text.dotted (a.displayName name) = Text.dotted (b.displayName other)) :
    a.displayName name = b.displayName other := by
  have hlist := congrArg String.toList h
  have hcut {s : List Char} (hs : '(' ∉ s) (rest : List Char) := Text.splitOnce?_append hs rest
  rcases toList_dotted_displayName ha with ⟨hname, hbare⟩ | hfull <;>
    rcases toList_dotted_displayName hb with ⟨hother, hbare'⟩ | hfull'
  · rw [hname, hother] at hlist
    rw [hbare, hbare', String.toList_inj.1 hlist]
  · refine absurd ?_ ha.parenthesis
    rw [← hname, hlist, hfull']
    simp
  · refine absurd ?_ hb.parenthesis
    rw [← hother, ← hlist, hfull]
    simp
  · have hparts := hcut ha.parenthesis (a.fileName.toList ++ [')'])
    rw [← hfull, hlist, hfull', hcut hb.parenthesis, Option.some.injEq, Prod.mk.injEq,
      List.append_cancel_right_eq] at hparts
    have haddress : b = a := fileName_injective hb.host ha.host (String.toList_inj.1 hparts.2)
    have hnames : Text.upper other = Text.upper name := String.toList_inj.1 hparts.1
    rw [haddress, displayName, displayName, hnames]

end Address

/-! ### Files in a directory -/

namespace Files

/-- A name in a directory, which leads nowhere else. -/
structure IsEntry (name : String) : Prop where
  slash : '/' ∉ name.toList
  nonempty : name ≠ ""
  ne_here : name ≠ "."
  ne_parent : name ≠ ".."

/-- The path of something that stands in the directory itself. -/
def IsChild (dir path : String) : Prop := ∃ name, IsEntry name ∧ path = dir ++ "/" ++ name

end Files

namespace Store

open Files (IsEntry IsChild)

/-- The name that the two files of a node have in common in a directory: its own, dotted, unless that has slashes.
One that spells the whole path of the directory stands for what comes behind it. -/
def Stem (path node stem : String) : Prop :=
  '/' ∉ stem.toList ∧
    (Text.dotted node = stem ∨ path.startsWith "/" ∧ Text.dotted node = path ++ "/" ++ stem)

/-- The files for the output and for the errors of two nodes. -/
def fourFiles (dir : String) (id : Int) (node other : String) : List String :=
  [(outputFiles dir id node).2.1, (outputFiles dir id node).2.2,
    (outputFiles dir id other).2.1, (outputFiles dir id other).2.2]

/-- Each of two nodes has its own files, and they stand in the directory of the job. -/
structure HaveOwnFiles (dir : String) (id : Int) (node other : String) : Prop where
  child : ∀ path ∈ fourFiles dir id node other, IsChild (outputFiles dir id node).1 path
  apart : (fourFiles dir id node other).Nodup

variable {path node other stem ending : String}

theorem isEntry_append (hstem : '/' ∉ stem.toList) (hending : ending = ".out" ∨ ending = ".err") :
    IsEntry (stem ++ ending) := by
  have hlength : 4 ≤ (stem ++ ending).toList.length := by
    rw [String.toList_append, List.length_append]
    rcases hending with rfl | rfl <;> simp
  refine ⟨?_, ?_, ?_, ?_⟩
  · rw [String.toList_append, List.mem_append, not_or]
    refine ⟨hstem, ?_⟩
    rcases hending with rfl | rfl <;> decide
  all_goals
    intro heq
    rw [heq] at hlength
    revert hlength
    decide

/-- How a text starts is seen in its first character, if it has one. -/
theorem startsWith_append {name : String} (h : name ≠ "") (rest : String) :
    (name ++ rest).startsWith "/" = name.startsWith "/" := by
  have hslash : "/".toList = ['/'] := rfl
  rw [Bool.eq_iff_iff, String.startsWith_string_iff, String.startsWith_string_iff, String.toList_append, hslash]
  cases hname : name.toList with
  | nil => exact absurd (String.toList_eq_nil_iff.1 hname) h
  | cons c more => simp [List.cons_prefix_cons]

theorem Stem.join (h : Stem path node stem) (hpath : path ≠ "") (hending : ending = ".out" ∨ ending = ".err") :
    Files.join path (Text.dotted node ++ ending) = path ++ "/" ++ (stem ++ ending) := by
  obtain ⟨hslash, hname | ⟨habsolute, hname⟩⟩ := h
  · rw [Files.join, hname, Text.startsWith_of_not_mem (isEntry_append hslash hending).slash]
    rfl
  · rw [Files.join, hname, String.append_assoc, String.append_assoc, startsWith_append hpath, habsolute,
      String.append_assoc]
    rfl

theorem exists_stem (hpath : path ≠ "") (hending : ending = ".out" ∨ ending = ".err")
    (h : IsChild path (Files.join path (Text.dotted node ++ ending))) : ∃ stem, Stem path node stem := by
  obtain ⟨name, hentry, hjoin⟩ := h
  have hlast : '/' ∉ ending.toList := by rcases hending with rfl | rfl <;> decide
  unfold Files.join at hjoin
  split at hjoin
  · rename_i hstarts
    have hlist := congrArg String.toList hjoin
    have hslash : "/".toList = ['/'] := rfl
    rw [String.toList_append, String.toList_append, String.toList_append, hslash, List.append_assoc,
      List.singleton_append] at hlist
    obtain ⟨middle, hnode, hname⟩ := Text.exists_of_append_eq hlist hlast
    refine ⟨String.ofList middle, ?_, .inr ⟨?_, String.toList_inj.1 (by simp [hnode])⟩⟩
    · rw [String.toList_ofList]
      exact fun hmem => hentry.slash (by rw [hname]; exact List.mem_append_left _ hmem)
    · rwa [hjoin, String.append_assoc, startsWith_append hpath] at hstarts
  · refine ⟨Text.dotted node, ?_, .inl rfl⟩
    rw [String.append_right_inj] at hjoin
    rw [← hjoin] at hentry
    exact fun hmem => hentry.slash (by rw [String.toList_append]; exact List.mem_append_left _ hmem)

theorem path_ne_empty (dir : String) (id : Int) : dir ++ "/" ++ toString id ≠ "" := by
  intro heq
  have hlist := congrArg String.toList heq
  simp at hlist

theorem fourFiles_eq {dir : String} {id : Int} {stem stem' : String} (h : Stem (dir ++ "/" ++ toString id) node stem)
    (h' : Stem (dir ++ "/" ++ toString id) other stem') : fourFiles dir id node other =
      [stem ++ ".out", stem ++ ".err", stem' ++ ".out", stem' ++ ".err"].map (dir ++ "/" ++ toString id ++ "/" ++ ·) := by
  have hpath := path_ne_empty dir id
  simp only [fourFiles, outputFiles, h.join hpath (.inl rfl), h.join hpath (.inr rfl), h'.join hpath (.inl rfl),
    h'.join hpath (.inr rfl), List.map_cons, List.map_nil]

/-- Two nodes have their own files exactly if their names give different names in the directory. -/
theorem haveOwnFiles_iff {dir : String} {id : Int} : HaveOwnFiles dir id node other ↔
    ∃ stem stem', Stem (dir ++ "/" ++ toString id) node stem ∧ Stem (dir ++ "/" ++ toString id) other stem' ∧
      stem ≠ stem' := by
  constructor
  · intro h
    have hstems (name : String) (hmem : Files.join (dir ++ "/" ++ toString id) (Text.dotted name ++ ".out") ∈
        fourFiles dir id node other) : ∃ stem, Stem (dir ++ "/" ++ toString id) name stem :=
      exists_stem (path_ne_empty dir id) (.inl rfl) (h.child _ hmem)
    obtain ⟨stem, hstem⟩ := hstems node (by simp [fourFiles, outputFiles])
    obtain ⟨stem', hstem'⟩ := hstems other (by simp [fourFiles, outputFiles])
    refine ⟨stem, stem', hstem, hstem', ?_⟩
    rintro rfl
    have hapart := h.apart
    rw [fourFiles_eq hstem hstem'] at hapart
    simp at hapart
  · rintro ⟨stem, stem', hstem, hstem', hne⟩
    have hfiles := fourFiles_eq hstem hstem'
    refine ⟨?_, ?_⟩
    · intro path hpath
      rw [hfiles] at hpath
      obtain ⟨name, hname, rfl⟩ := List.mem_map.1 hpath
      refine ⟨name, ?_, rfl⟩
      simp only [List.mem_cons, List.not_mem_nil, or_false] at hname
      rcases hname with rfl | rfl | rfl | rfl
      · exact isEntry_append hstem.1 (.inl rfl)
      · exact isEntry_append hstem.1 (.inr rfl)
      · exact isEntry_append hstem'.1 (.inl rfl)
      · exact isEntry_append hstem'.1 (.inr rfl)
    · rw [hfiles]
      refine List.Nodup.map (fun a b h => (String.append_right_inj _).1 h) ?_
      simp [Text.out_ne_err, (Text.out_ne_err _ _).symm, hne]

end Store

namespace Liveness

open Store (HaveOwnFiles Stem)

theorem uncoloned_of_heartbeat {l l' : Liveness} {timeout : Int} {name host d : String}
    (h : l.heartbeat timeout name host = .ok (l', d)) (hname : ':' ∉ name.toList) (hlocal : ':' ∉ l.localName.toList) :
    ∃ (address : Address) (claim : String), address.Uncoloned claim ∧ d = address.displayName claim := by
  obtain ⟨claim, address, hclaim, haddress, rfl, -⟩ := heartbeat_eq_ok_iff.1 h
  obtain ⟨hplain, hupper⟩ := claimedName_eq_ok hclaim
  refine ⟨address, claim, ⟨Address.colon_not_mem_host haddress hlocal, ?_, by rwa [hupper]⟩, rfl⟩
  rw [hupper, claimedName_eq hclaim]
  refine Address.colon_not_mem_upper fun hmem => hname ?_
  rw [Text.toList_trim] at hmem
  exact (Text.trimmed_sublist _).subset hmem

/-- Two nodes with different display names have their own files in the directory of a job exactly if their names,
dotted, are different names in it. They are, if no name and no head node's own name has a colon, and no display name
a slash. -/
theorem haveOwnFiles_iff_of_heartbeats {l k l' k' : Liveness} {timeout timeout' : Int}
    {name other host otherHost d e : String} (hd : l.heartbeat timeout name host = .ok (l', d))
    (he : k.heartbeat timeout' other otherHost = .ok (k', e)) (hne : d ≠ e) (dir : String) (id : Int) :
    (HaveOwnFiles dir id d e ↔ ∃ stem stem', Stem (dir ++ "/" ++ toString id) d stem ∧
        Stem (dir ++ "/" ++ toString id) e stem' ∧ stem ≠ stem') ∧
      (':' ∉ name.toList → ':' ∉ other.toList → ':' ∉ l.localName.toList → ':' ∉ k.localName.toList →
        '/' ∉ d.toList → '/' ∉ e.toList → HaveOwnFiles dir id d e) := by
  refine ⟨Store.haveOwnFiles_iff, ?_⟩
  intro hname hother hlocal hlocal' hslash hslash'
  obtain ⟨address, claim, hplain, rfl⟩ := uncoloned_of_heartbeat hd hname hlocal
  obtain ⟨address', claim', hplain', rfl⟩ := uncoloned_of_heartbeat he hother hlocal'
  have hentry {s : String} (hs : '/' ∉ s.toList) : '/' ∉ (Text.dotted s).toList := by
    rwa [Text.mem_dotted_iff (by decide) (by decide)]
  exact Store.haveOwnFiles_iff.2 ⟨_, _, ⟨hentry hslash, .inl rfl⟩, ⟨hentry hslash', .inl rfl⟩,
    fun heq => hne (Address.displayName_eq_of_dotted hplain hplain' heq)⟩

/-- A host reports nodes under names without parentheses. -/
theorem heartbeat_apart {l : Liveness} {nodename display : String} (timeout : Int) (claim : String)
    (hplain : (nodename.contains '(' || nodename.contains ')') = false)
    (hclaim : Text.trim nodename ≠ "" ∧ Text.upper (Text.trim nodename) = claim)
    (hdisplay : display = (Address.displayName ⟨"H", 50505⟩ claim)) :
    ∃ l', l.heartbeat timeout nodename "h" = .ok (l', display) := by
  have hname : claimedName nodename = .ok claim := by
    rw [claimedName, hplain, if_neg (by simp), if_neg hclaim.1, hclaim.2]
  exact ⟨_, heartbeat_eq_ok_iff.2 ⟨claim, ⟨"H", 50505⟩, hname, rfl, hdisplay, rfl⟩⟩

/-- Two nodes of one name on different hosts have their own files. -/
theorem haveOwnFiles_of_namesakes :
    (∃ l', (ofLocal "head").heartbeat 5 "n" "n" = .ok (l', "N")) ∧
      (∃ l', (ofLocal "head").heartbeat 5 "n" "h" = .ok (l', "N(H:50505)")) ∧
      HaveOwnFiles "output" 1 "N" "N(H:50505)" := by
  have hd : ∃ l', (ofLocal "head").heartbeat 5 "n" "n" = .ok (l', "N") := by
    have hname : claimedName "n" = .ok "N" := by
      have hplain : ("n".contains '(' || "n".contains ')') = false := by simp
      have hclaim : Text.trim "n" ≠ "" ∧ Text.upper (Text.trim "n") = "N" := by decide +kernel
      rw [claimedName, hplain, if_neg (by simp), if_neg hclaim.1, hclaim.2]
    exact ⟨_, heartbeat_eq_ok_iff.2 ⟨"N", ⟨"N", 50505⟩, hname, rfl, by decide +kernel, rfl⟩⟩
  have he : ∃ l', (ofLocal "head").heartbeat 5 "n" "h" = .ok (l', "N(H:50505)") :=
    heartbeat_apart 5 "N" (by simp) (by decide +kernel) (by decide +kernel)
  obtain ⟨l, hl⟩ := hd
  obtain ⟨k, hk⟩ := he
  refine ⟨⟨l, hl⟩, ⟨k, hk⟩, ?_⟩
  exact (haveOwnFiles_iff_of_heartbeats hl hk (by decide) "output" 1).2 (by decide) (by decide) (by decide +kernel)
    (by decide +kernel) (by decide) (by decide)

/-- A head node hears of two nodes at one address, one after the other, whose names differ in a colon and a dot: they
share their files. The files of a node whose name has slashes stand in the directory of another job. -/
theorem files_shared_and_astray :
    (∃ l l', (ofLocal "head").heartbeat 5 "a:b" "h" = .ok (l, "A:B(H:50505)") ∧
        l.heartbeat 5 "a.b" "h" = .ok (l', "A.B(H:50505)")) ∧
      "A:B(H:50505)" ≠ "A.B(H:50505)" ∧
      Store.outputFiles "output" 1 "A:B(H:50505)" = Store.outputFiles "output" 1 "A.B(H:50505)" ∧
      (∃ l, (ofLocal "head").heartbeat 5 "../1/m" "h" = .ok (l, "../1/M(H:50505)")) ∧
      (Store.outputFiles "output" 2 "../1/M(H:50505)").2.1 = "output/2/../1/M(H.50505).out" ∧
      Files.resolve [] "output/2/../1/M(H.50505).out" = ["output", "1", "M(H.50505).out"] ∧
      ¬ Files.IsChild "output/2" "output/2/../1/M(H.50505).out" := by
  have hcolon : Text.dotted "A:B(H:50505)" = "A.B(H.50505)" := by decide +kernel
  have hdot : Text.dotted "A.B(H:50505)" = "A.B(H.50505)" := by decide +kernel
  refine ⟨?_, by decide, by rw [Store.outputFiles, Store.outputFiles, hcolon, hdot],
    heartbeat_apart 5 "../1/M" (by simp) (by decide +kernel) (by decide +kernel), by decide +kernel, by decide +kernel, ?_⟩
  · have hfirst : ∃ l, (ofLocal "head").heartbeat 5 "a:b" "h" = .ok (l, "A:B(H:50505)") :=
      heartbeat_apart 5 "A:B" (by simp) (by decide +kernel) (by decide +kernel)
    obtain ⟨l, hl⟩ := hfirst
    have hnext : ∃ l', l.heartbeat 5 "a.b" "h" = .ok (l', "A.B(H:50505)") :=
      heartbeat_apart 5 "A.B" (by simp) (by decide +kernel) (by decide +kernel)
    obtain ⟨l', hl'⟩ := hnext
    exact ⟨l, l', hl, hl'⟩
  · rintro ⟨name, hentry, heq⟩
    have hsplit : "output/2/../1/M(H.50505).out" = "output/2" ++ "/" ++ "../1/M(H.50505).out" := by decide +kernel
    rw [hsplit, String.append_right_inj] at heq
    exact hentry.slash (by rw [← heq]; decide)

end Liveness

end Muster
