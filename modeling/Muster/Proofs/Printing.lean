import Muster.Proofs.Frames
import Muster.Proofs.OutputFiles
import Muster.Proofs.Verdict

/-!
# What is printed of a node

The output of a node comes in texts, and each text is printed line by line with the name of the node before its
lines. So a line that is cut between two texts is printed as two. The lines of a node are those of its whole output
exactly if no text ends within a line while more comes; what comes of other nodes in between makes no difference.
-/

namespace Muster

/-! ### Lines of texts that are put together -/

namespace Text

/-- There is nothing in the text, or it goes to the end of a line. -/
def EndsLine (s : String) : Prop := ∀ c ∈ s.toList.getLast?, c = '\n'

instance (s : String) : Decidable (EndsLine s) :=
  decidable_of_iff (s.toList.getLast?.all (· == '\n')) (by simp [EndsLine, Option.all_eq_true])

/-- Texts that are one text, cut behind ends of lines only: what ends within a line has nothing behind it. -/
def AtLineEnds (texts : List String) : Prop := texts.Pairwise fun text later => EndsLine text ∨ later = ""

instance (texts : List String) : Decidable (AtLineEnds texts) :=
  inferInstanceAs (Decidable (texts.Pairwise _))

variable {s t : String} {texts : List String}

theorem eq_empty_of_endsLine (h : EndsLine s) : s = "" ∨ ∃ front, s.toList = front ++ ['\n'] := by
  obtain hnil | ⟨front, last, hs⟩ := List.eq_nil_or_concat s.toList
  · exact .inl (String.toList_eq_nil_iff.1 hnil)
  · have hlast : last = '\n' := h last (by simp [hs])
    exact .inr ⟨front, by rw [hs, hlast, List.concat_eq_append]⟩

/-- Lines that have ended are not changed by what comes behind them. -/
theorem lines_append (h : EndsLine s) (t : String) : lines (s ++ t) = lines s ++ lines t := by
  rcases eq_empty_of_endsLine h with rfl | ⟨front, hs⟩
  · rw [String.empty_append]
    rfl
  · have hsplit : split '\n' (s ++ t).toList = split '\n' front ++ split '\n' t.toList := by
      rw [String.toList_append, hs, List.append_assoc, List.singleton_append, split_append]
    have hself : split '\n' s.toList = split '\n' front ++ [[]] := by
      rw [hs, split_append]
      rfl
    have hrest := split_ne_nil '\n' t.toList
    simp only [lines, hsplit, hself, List.dropLast_append_of_ne_nil hrest, List.getLast?_append_of_ne_nil _ hrest,
      List.dropLast_concat, List.getLast?_concat, Option.getD_some, List.isEmpty_nil, if_true, List.append_nil,
      List.map_append, List.append_assoc]

/-- The last piece is empty exactly if the text goes to the end of a line. -/
theorem exists_last_piece (s : String) :
    ∃ piece, (split '\n' s.toList).getLast? = some piece ∧ (piece = [] ↔ EndsLine s) := by
  obtain hnil | ⟨front, last, hs⟩ := List.eq_nil_or_concat s.toList
  · exact ⟨[], by rw [hnil]; rfl, by simp [EndsLine, hnil]⟩
  rw [List.concat_eq_append] at hs
  by_cases hlast : last = '\n'
  · refine ⟨[], ?_, by simp [EndsLine, hs, hlast]⟩
    rw [hs, hlast, split_append, List.getLast?_append_of_ne_nil _ (split_ne_nil _ _)]
    rfl
  · have hnot : '\n' ∉ [last] := by simp [Ne.symm hlast]
    obtain ⟨first, hpiece⟩ := getLast?_split_append hnot front
    exact ⟨_, by rw [hs]; exact hpiece, by simp [EndsLine, hs, hlast]⟩

/-- There are as many lines as line feeds, and one more if the last line has not ended. -/
theorem length_lines (s : String) :
    (lines s).length = s.toList.count '\n' + if EndsLine s then 0 else 1 := by
  obtain ⟨piece, hpiece, hends⟩ := exists_last_piece s
  have hlength := CommandLine.Program.length_split '\n' s.toList
  simp only [lines, hpiece, Option.getD_some, List.length_map, List.length_append, List.length_dropLast, hlength,
    List.isEmpty_iff, hends, Nat.add_sub_cancel]
  split <;> rfl

theorem endsLine_append (ht : t ≠ "") : EndsLine (s ++ t) ↔ EndsLine t := by
  have hlist : t.toList ≠ [] := fun hnil => ht (String.toList_eq_nil_iff.1 hnil)
  rw [EndsLine, EndsLine, String.toList_append, List.getLast?_append_of_ne_nil _ hlist]

/-- A line that is cut counts twice. -/
theorem length_lines_append (hs : ¬ EndsLine s) (ht : t ≠ "") :
    (lines (s ++ t)).length + 1 = (lines s).length + (lines t).length := by
  simp only [length_lines, endsLine_append ht, if_neg hs, String.toList_append, List.count_append]
  omega

theorem length_lines_append_le (s t : String) : (lines (s ++ t)).length ≤ (lines s).length + (lines t).length := by
  by_cases hs : EndsLine s
  · rw [lines_append hs, List.length_append]
  by_cases ht : t = ""
  · simp [ht]
  · have := length_lines_append hs ht
    omega

theorem length_lines_join_le (texts : List String) :
    (lines (String.join texts)).length ≤ (texts.flatMap lines).length := by
  induction texts with
  | nil => exact Nat.le_refl 0
  | cons text rest ih =>
    have happend := length_lines_append_le text (String.join rest)
    rw [String.join_cons, List.flatMap_cons, List.length_append]
    omega

theorem join_eq_empty_iff : String.join texts = "" ↔ ∀ text ∈ texts, text = "" := by
  rw [← String.toList_eq_nil_iff, String.toList_join, List.flatMap_eq_nil_iff]
  simp only [String.toList_eq_nil_iff]

/-- The lines of texts one by one are the lines of all of them together exactly if no line is cut. -/
theorem lines_join_iff (texts : List String) :
    lines (String.join texts) = texts.flatMap lines ↔ AtLineEnds texts := by
  induction texts with
  | nil => exact ⟨fun _ => .nil, fun _ => rfl⟩
  | cons text rest ih =>
    rw [String.join_cons, List.flatMap_cons, AtLineEnds, List.pairwise_cons]
    by_cases hends : EndsLine text
    · rw [lines_append hends, List.append_cancel_left_eq, ih]
      exact ⟨fun h => ⟨fun _ _ => .inl hends, h⟩, fun h => h.2⟩
    · -- Behind a line that has not ended there is nothing, or there is one line too many.
      simp only [hends, false_or, ← join_eq_empty_iff]
      constructor
      · intro h
        have hrest : String.join rest = "" := by
          by_contra hne
          have hlength := congrArg List.length h
          have hmore := length_lines_append hends hne
          have hle := length_lines_join_le rest
          rw [List.length_append] at hlength
          omega
        refine ⟨hrest, List.pairwise_iff_forall_sublist.2 fun {_ later} hsub => .inr ?_⟩
        exact join_eq_empty_iff.1 hrest later (hsub.subset (by simp))
      · rintro ⟨hrest, hwhole⟩
        have hlines := ih.2 hwhole
        rw [hrest] at hlines ⊢
        rw [String.append_empty, ← hlines]
        exact (List.append_nil _).symm

end Text

namespace Dispatch

open Execution (Source textOf?)

/-- The texts that came of a node's output, one of each frame. -/
def Stream.textsOf (s : Stream) (source : Source) (node : String) : List String :=
  (s.framesOf node).filterMap (textOf? source)

end Dispatch

namespace CommandLine

open Execution (Source textOf?)

/-- The lines on one of the two outputs. -/
def Printed.linesOn (p : Printed) : Source → List String
  | .out => p.out
  | .err => p.err

namespace Report

/-- What stands before the lines of a node. -/
def mark (node : String) : String := "[" ++ node ++ "]: "

/-- The lines on an output that have the name of a node before them. -/
def linesOf (p : Printed) (source : Source) (node : String) : List String :=
  (p.linesOn source).filter (·.startsWith (mark node))

/-- What is printed of one frame on an output. -/
def frameLines (source : Source) (e : String × Frame) : List String :=
  (textOf? source e.2).elim [] (nodeLines e.1)

/-- A name is not taken for the beginning of another one that stands before a line. -/
def Plain (name : String) : Prop := ¬ [']', ':', ' '] <:+: name.toList

instance (name : String) : Decidable (Plain name) := inferInstanceAs (Decidable (¬ _))

variable {s : Dispatch.Stream} {source : Source} {node other line : String}

/-! ### Names before lines -/

theorem toList_mark (node : String) : (mark node).toList = '[' :: (node.toList ++ [']', ':', ' ']) := by
  simp [mark]

theorem nodeLines_eq (node text : String) : nodeLines node text = (Text.lines text).map (mark node ++ ·) := rfl

theorem startsWith_mark (h : line ∈ nodeLines node other) : line.startsWith (mark node) := by
  obtain ⟨rest, -, rfl⟩ := List.mem_map.1 (nodeLines_eq node other ▸ h)
  rw [String.startsWith_string_iff, String.toList_append]
  exact List.prefix_append _ _

/-- Where a plain name goes on, what stands behind it there is not what stands behind a name. -/
theorem eq_nil_of_plain {more front rest : List Char} {back : List Char}
    (hplain : ¬ [']', ':', ' '] <:+: front ++ more)
    (h : [']', ':', ' '] ++ rest = more ++ ([']', ':', ' '] ++ back)) : more = [] := by
  match more, h with
  | [], _ => rfl
  | [_], h => simp at h
  | [_, _], h => simp at h
  | _ :: _ :: _ :: more, h =>
    simp only [List.cons_append, List.nil_append, List.cons.injEq] at h
    obtain ⟨rfl, rfl, rfl, -⟩ := h
    exact absurd ⟨front, more, by simp⟩ hplain

/-- A line of one node has not the name of another one before it. -/
theorem not_startsWith_mark (hnode : Plain node) (hother : Plain other) (hne : other ≠ node) (text : String) :
    ¬ (mark other ++ text).startsWith (mark node) := by
  rw [String.startsWith_string_iff, String.toList_append, toList_mark, toList_mark, List.cons_append,
    List.cons_prefix_cons]
  rintro ⟨-, rest, h⟩
  rw [List.append_assoc, List.append_assoc] at h
  rcases List.append_eq_append_iff.1 h with ⟨more, hlist, hrest⟩ | ⟨more, hlist, hrest⟩
  · rw [Plain, hlist] at hother
    rw [eq_nil_of_plain hother hrest, List.append_nil] at hlist
    exact hne (String.toList_inj.1 hlist)
  · rw [Plain, hlist] at hnode
    rw [eq_nil_of_plain hnode hrest, List.append_nil] at hlist
    exact hne (String.toList_inj.1 hlist).symm

/-- A node whose name and host have no colon is shown under a plain name: the one colon of an address has a digit
behind it. -/
theorem plain_displayName {a : Address} {name : String} (h : a.Uncoloned name) : Plain (a.displayName name) := by
  rintro ⟨front, rest, hinfix⟩
  have hcolon : front ++ [']', ':', ' '] ++ rest = (front ++ [']']) ++ ':' :: ' ' :: rest := by simp
  rw [hcolon] at hinfix
  rcases Address.toList_displayName a name with ⟨-, -, hbare⟩ | hfull
  · refine h.claim ?_
    rw [← hbare, ← hinfix]
    simp
  · have hdigits : ':' ∉ Nat.toDigits 10 a.port.toNat ++ [')'] := by
      rw [List.mem_append, not_or]
      exact ⟨Text.not_mem_toDigits (by decide) _, by simp⟩
    have hlist : (a.displayName name).toList = ((Text.upper name).toList ++ '(' :: (a.host.toList ++ [':'])) ++
        (Nat.toDigits 10 a.port.toNat ++ [')']) := by
      rw [hfull, Address.toList_text]
      simp
    obtain ⟨middle, hfront, hrest⟩ := Text.exists_of_append_eq (hlist.symm.trans hinfix.symm) hdigits
    cases middle with
    | nil =>
      obtain ⟨c, more, hcons, hdigit⟩ := Text.exists_cons_toDigits a.port.toNat
      rw [hcons, List.nil_append, List.cons_append, List.cons.injEq] at hrest
      rw [← hrest.1] at hdigit
      cases hdigit
    | cons c more =>
      have hmem : ':' ∈ (Text.upper name).toList ++ '(' :: a.host.toList := by
        have hlast := congrArg List.dropLast hfront
        rw [← List.cons_append, ← List.append_assoc, List.dropLast_concat] at hlast
        rw [hlast]
        simp
      rcases List.mem_append.1 hmem with hmem | hmem
      · exact h.claim hmem
      · simp [h.host] at hmem

/-! ### What is printed of a stream -/

theorem follow_lines (frames : List (String × Frame)) :
    (follow frames).out = frames.flatMap (frameLines .out) ∧
      (follow frames).err = frames.flatMap (frameLines .err) := by
  induction frames using List.reverseRecOn with
  | nil => exact ⟨rfl, rfl⟩
  | append_singleton frames e ih =>
    obtain ⟨node, frame⟩ := e
    rw [follow_concat]
    cases frame <;> simp [Progress.take, frameLines, textOf?, ih]

theorem head?_toString_append (n : Nat) (rest : String) : (toString n ++ rest).toList.head? ≠ some '[' := by
  obtain ⟨c, more, hdigits, hdigit⟩ := Text.exists_cons_toDigits n
  have hlist : (toString n ++ rest).toList = c :: (more ++ rest.toList) := by
    rw [String.toList_append, ← List.cons_append, ← hdigits]
    simp [Nat.repr_eq_ofList_toDigits]
  rw [hlist, List.head?_cons]
  rintro ⟨⟩
  cases hdigit

theorem head?_summary (codes : SortedMap String Int) : ∀ line ∈ summary codes, line.toList.head? ≠ some '[' := by
  intro line hline
  simp only [summary, List.mem_append, List.mem_cons, List.not_mem_nil, or_false, List.mem_map] at hline
  rcases hline with (rfl | rfl) | ⟨e, -, rfl⟩
  · simp
  · simp only [String.append_assoc]
    exact head?_toString_append _ _
  · simp

/-- Beside the lines of nodes an output has only lines that begin otherwise. -/
theorem linesOn_stream (s : Dispatch.Stream) (source : Source) :
    ∃ before after, (stream s).linesOn source = before ++ (s.frames.flatMap (frameLines source) ++ after) ∧
      ∀ line ∈ before ++ after, line.toList.head? ≠ some '[' := by
  obtain ⟨hout, herr⟩ := follow_lines s.frames
  have hstart : (startLine s).toList.head? ≠ some '[' := by simp [startLine]
  cases source with
  | out =>
    refine ⟨[startLine s], if s.fault.isSome then [] else summary (follow s.frames).codes, ?_, ?_⟩
    · rw [← hout, Printed.linesOn, stream]
      cases s.fault <;> rfl
    · intro line hline
      rcases List.mem_cons.1 hline with rfl | hline
      · exact hstart
      · split at hline
        · cases hline
        · exact head?_summary _ line hline
  | err =>
    refine ⟨[], s.fault.elim [] fun fault => (Printed.failure (statusText fault.toStatus)).err, ?_, ?_⟩
    · rw [← herr, Printed.linesOn, stream]
      cases s.fault <;> rfl
    · intro line hline
      cases hfault : s.fault with
      | none =>
        rw [hfault] at hline
        cases hline
      | some fault =>
        rw [hfault] at hline
        rw [List.mem_singleton.1 hline]
        simp

theorem linesOf_stream (s : Dispatch.Stream) (source : Source) (node : String) :
    linesOf (stream s) source node = (s.frames.flatMap (frameLines source)).filter (·.startsWith (mark node)) := by
  obtain ⟨before, after, hlines, hother⟩ := linesOn_stream s source
  have hnone : ∀ line ∈ before ++ after, ¬ line.startsWith (mark node) := by
    intro line hline hstarts
    rw [String.startsWith_string_iff, toList_mark] at hstarts
    obtain ⟨rest, hrest⟩ := hstarts
    exact hother line hline (by rw [← hrest]; rfl)
  have hbefore := List.filter_eq_nil_iff.2 fun line hline => hnone line (List.mem_append_left after hline)
  have hafter := List.filter_eq_nil_iff.2 fun line hline => hnone line (List.mem_append_right before hline)
  rw [linesOf, hlines, List.filter_append, List.filter_append, hbefore, hafter, List.nil_append, List.append_nil]

/-- The lines of other nodes that begin like one of the node. -/
def strangeLines (s : Dispatch.Stream) (source : Source) (node : String) : List String :=
  ((s.frames.filter (·.1 ≠ node)).flatMap (frameLines source)).filter (·.startsWith (mark node))

theorem strangeLines_eq_nil_iff : strangeLines s source node = [] ↔
    ∀ e ∈ s.frames, e.1 ≠ node → ∀ line ∈ frameLines source e, ¬ line.startsWith (mark node) := by
  simp only [strangeLines, List.filter_eq_nil_iff, List.mem_flatMap, List.mem_filter, decide_eq_true_eq]
  constructor
  · exact fun h e he hne line hline => h line ⟨e, ⟨he, hne⟩, hline⟩
  · rintro h line ⟨e, ⟨he, hne⟩, hline⟩
    exact h e he hne line hline

theorem strangeLines_of_plain (hnode : Plain node) (hothers : ∀ e ∈ s.frames, Plain e.1) :
    strangeLines s source node = [] := by
  rw [strangeLines_eq_nil_iff]
  intro e he hne line hline
  unfold frameLines at hline
  cases htext : textOf? source e.2 with
  | none =>
    rw [htext] at hline
    cases hline
  | some text =>
    rw [htext, Option.elim_some, nodeLines_eq] at hline
    obtain ⟨rest, -, rfl⟩ := List.mem_map.1 hline
    exact not_startsWith_mark hnode (hothers e he) hne rest

theorem flatMap_frameLines (s : Dispatch.Stream) (source : Source) (node : String) :
    (s.frames.filter (·.1 = node)).flatMap (frameLines source) = (s.textsOf source node).flatMap (nodeLines node) := by
  rw [Dispatch.Stream.textsOf, Dispatch.Stream.framesOf]
  induction s.frames with
  | nil => rfl
  | cons e rest ih =>
    by_cases hnode : e.1 = node
    · rw [List.filter_cons_of_pos (by simp [hnode]), List.flatMap_cons, ih, List.filterMap_cons, if_pos hnode,
        List.filterMap_cons, frameLines, hnode]
      cases textOf? source e.2 <;> rfl
    · rw [List.filter_cons_of_neg (by simp [hnode]), ih, List.filterMap_cons, if_neg hnode]

theorem filter_ownLines (s : Dispatch.Stream) (source : Source) (node : String) :
    ((s.textsOf source node).flatMap (nodeLines node)).filter (·.startsWith (mark node)) =
      (s.textsOf source node).flatMap (nodeLines node) := by
  refine List.filter_eq_self.2 fun line hline => ?_
  obtain ⟨text, -, hline⟩ := List.mem_flatMap.1 hline
  exact startsWith_mark hline

/-- The lines of the node's own frames are there in their order. -/
theorem sublist_linesOf (s : Dispatch.Stream) (source : Source) (node : String) :
    ((s.textsOf source node).flatMap (nodeLines node)).Sublist (linesOf (stream s) source node) := by
  have hown : (s.frames.filter (·.1 = node)).Sublist s.frames := List.filter_sublist
  rw [linesOf_stream, ← filter_ownLines, ← flatMap_frameLines]
  exact (hown.flatMap (frameLines source)).filter _

/-- What has the name of a node before it are the lines of its own frames, and those of others that begin so. -/
theorem length_linesOf (s : Dispatch.Stream) (source : Source) (node : String) :
    (linesOf (stream s) source node).length =
      ((s.textsOf source node).flatMap (nodeLines node)).length + (strangeLines s source node).length := by
  have hparts := (List.filter_append_perm (·.1 = node) s.frames).flatMap_right (frameLines source)
  have hlength := (hparts.filter (·.startsWith (mark node))).length_eq
  rw [List.flatMap_append, List.filter_append, flatMap_frameLines, filter_ownLines, List.length_append] at hlength
  rw [linesOf_stream, ← hlength, strangeLines]
  simp only [decide_not]

theorem linesOf_of_strangeLines (h : strangeLines s source node = []) :
    linesOf (stream s) source node = (s.textsOf source node).flatMap (nodeLines node) := by
  have hlength := length_linesOf s source node
  rw [h, List.length_nil, Nat.add_zero] at hlength
  exact ((sublist_linesOf s source node).eq_of_length hlength.symm).symm

theorem flatMap_nodeLines (node : String) (texts : List String) :
    texts.flatMap (nodeLines node) = (texts.flatMap Text.lines).map (mark node ++ ·) := by
  rw [List.map_flatMap]
  rfl

/-- On each output the lines with the name of a node before them are those of all its output there exactly if its
texts are cut behind ends of lines only, and no line of another node begins like one of its own. Among plain names
none does: the lines of a node are then those of its texts one by one, whatever comes of the others in between. -/
theorem printed_whole_iff (s : Dispatch.Stream) (source : Source) (node : String) :
    (linesOf (stream s) source node = nodeLines node (String.join (s.textsOf source node)) ↔
      Text.AtLineEnds (s.textsOf source node) ∧
        ∀ e ∈ s.frames, e.1 ≠ node → ∀ line ∈ frameLines source e, ¬ line.startsWith (mark node)) ∧
      (Plain node → (∀ e ∈ s.frames, Plain e.1) →
        linesOf (stream s) source node = (s.textsOf source node).flatMap (nodeLines node)) := by
  have hwhole : (s.textsOf source node).flatMap (nodeLines node) =
      nodeLines node (String.join (s.textsOf source node)) ↔ Text.AtLineEnds (s.textsOf source node) := by
    have hmark : Function.Injective (mark node ++ ·) := fun _ _ h => (String.append_right_inj _).1 h
    rw [flatMap_nodeLines, nodeLines_eq, (List.map_injective_iff.2 hmark).eq_iff, eq_comm, Text.lines_join_iff]
  rw [← strangeLines_eq_nil_iff]
  refine ⟨⟨fun h => ?_, fun ⟨hends, hstrange⟩ => ?_⟩, fun hnode hothers => ?_⟩
  · -- The lines of all texts together are no more than those of each, so there is no room for a strange one.
    have hlength := length_linesOf s source node
    have hle := Text.length_lines_join_le (s.textsOf source node)
    rw [h, nodeLines_eq, List.length_map, flatMap_nodeLines, List.length_map] at hlength
    have hstrange : strangeLines s source node = [] := List.length_eq_zero_iff.1 (by omega)
    exact ⟨hwhole.1 ((linesOf_of_strangeLines hstrange).symm.trans h), hstrange⟩
  · exact (linesOf_of_strangeLines hstrange).trans (hwhole.2 hends)
  · exact linesOf_of_strangeLines (strangeLines_of_plain hnode hothers)

/-! ### A line that is cut -/

/-- A worker reads a line in two chunks. -/
def cutLine : List Executor.Event :=
  [.accept "H.1" "run" []] ++ Executor.startEvents 0 .done ++
    [.read 0 .out [0x61, 0x62], .read 0 .out [0x63, 0x64, 0x0A], .exit 0 (some 0)] ++ Executor.endEvents 0

/-- A job on one node. -/
def followed : Dispatch :=
  (Dispatch.idle.submit { command := "run", nodes := ["A"] } ["A"] 1 false Dispatch.epoch.1).1

/-- The frames of its execution come one by one. -/
def relaying (frames : List Frame) : Dispatch.History :=
  let events : List Dispatch.Event := [.begin 1, .answered 1 "A" true, .launch 1] ++
    frames.map (fun f => .reply 1 "A" f.reply) ++ [.ended 1 "A", .finish 1]
  events.map (Dispatch.epoch, ·)

/-- The one line of the output is printed as two. -/
theorem printed_of_cut_line :
    ∃ e s, (({} : Executor).run cutLine).executions[0]? = some e ∧ e.frames = [.out "ab", .out "cd\n", .exit 0] ∧
      (followed.runAt (relaying e.frames)).stream? 1 = some s ∧ s.fault = none ∧ s.isClosed ∧
      linesOf (stream s) .out "A" = ["[A]: ab", "[A]: cd"] ∧
      nodeLines "A" (String.join (s.textsOf .out "A")) = ["[A]: abcd"] := by
  have hrun : ∃ e, (({} : Executor).run cutLine).executions[0]? = some e ∧
      e.frames = [.out "ab", .out "cd\n", .exit 0] := ⟨_, rfl, by decide +kernel⟩
  obtain ⟨e, hi, hframes⟩ := hrun
  have hstream : (followed.runAt (relaying e.frames)).stream? 1 =
      some ⟨1, ["A"], [("A", .out "ab"), ("A", .out "cd\n"), ("A", .exit 0)], none, true, false⟩ := by
    rw [hframes]
    decide +kernel
  refine ⟨e, _, hi, hframes, hstream, rfl, rfl, ?_, by decide +kernel⟩
  rw [linesOf_of_strangeLines (strangeLines_of_plain (by decide +kernel) (by decide +kernel))]
  decide +kernel

/-- Two nodes take turns in the middle of their lines, and in their outputs. -/
def inTurns : Dispatch.Stream where
  id := 1
  nodes := ["A", "B(H:50505)"]
  frames := [("A", .out "one\r\ntwo\n"), ("B(H:50505)", .out "alpha"), ("A", .err "warn"), ("A", .out "three"),
    ("B(H:50505)", .exit 0), ("A", .exit 1)]
  isClosed := true

/-- The lines of each are whole. -/
theorem printed_of_turns :
    linesOf (stream inTurns) .out "A" = nodeLines "A" "one\r\ntwo\nthree" ∧
      nodeLines "A" "one\r\ntwo\nthree" = ["[A]: one", "[A]: two", "[A]: three"] := by
  have hplain : Plain "A" := by decide +kernel
  have hother : Plain "B(H:50505)" := by
    have hshown : (Address.displayName ⟨"H", 50505⟩ "b") = "B(H:50505)" := by decide +kernel
    rw [← hshown]
    exact plain_displayName ⟨by decide, by decide +kernel, by decide +kernel⟩
  have hframes : ∀ e ∈ inTurns.frames, Plain e.1 := by simp [inTurns, hplain, hother]
  have hstrange : strangeLines inTurns .out "A" = [] := strangeLines_of_plain hplain hframes
  have hjoined : String.join (inTurns.textsOf .out "A") = "one\r\ntwo\nthree" := by decide +kernel
  have hends : Text.AtLineEnds (inTurns.textsOf .out "A") := by decide +kernel
  rw [strangeLines_eq_nil_iff] at hstrange
  rw [← hjoined, (printed_whole_iff inTurns .out "A").1.2 ⟨hends, hstrange⟩, hjoined]
  exact ⟨rfl, by decide +kernel⟩

end Report

end CommandLine

end Muster
