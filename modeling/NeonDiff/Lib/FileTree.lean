import Mathlib.Data.List.Infix

/-! # File trees with symbolic links

A location is the list of the names from the root to it. A walk follows the segments of a path as the system does,
each link in its place; a segment that is not there is where a file or a directory of the path would be made. The
number of links that a walk follows is bounded.
-/

namespace NeonDiff.Lib

inductive Entry where
  | dir
  | file
  | link (absolute : Bool) (target : List String)
  deriving DecidableEq, Repr

/-- A segment that is no step in place and no step up. -/
def IsName (segment : String) : Prop := segment ≠ "" ∧ segment ≠ "." ∧ segment ≠ ".."

structure FileTree where
  entry : List String → Option Entry
  root : entry [] = some .dir
  parent : ∀ here name, entry (here ++ [name]) ≠ none → entry here = some .dir
  /-- No directory holds every name. -/
  spare : ∀ here name, ∃ other, IsName other ∧ other ≠ name ∧ entry (here ++ [other]) = none

structure Walked where
  location : List String
  linksLeft : Nat
  deriving DecidableEq, Repr

namespace FileTree

variable (tree : FileTree)

/-- The walk over segments from a location; `follow` goes on where a link leads. -/
def walkSegments (follow : List String → List String → Option Walked) (links : Nat) (here : List String) :
    List String → Option Walked
  | [] => some ⟨here, links⟩
  | segment :: rest =>
    if tree.entry here = some .file then none
    else if segment = "" ∨ segment = "." then walkSegments follow links here rest
    else if segment = ".." then
      -- there is no way up out of a directory that is not there
      if tree.entry here = none then none else walkSegments follow links here.dropLast rest
    else match tree.entry (here ++ [segment]) with
      | some (.link absolute target) => follow (if absolute then [] else here) (target ++ rest)
      | _ => walkSegments follow links (here ++ [segment]) rest

def walk : Nat → List String → List String → Option Walked
  | 0 => tree.walkSegments (fun _ _ => none) 0
  | links + 1 => tree.walkSegments (walk links) (links + 1)

/-- A path from the root leads to something that is there. -/
def present (links : Nat) (path : List String) : Bool :=
  (tree.walk links [] path).any fun w => (tree.entry w.location).isSome

variable {tree} {links : Nat} {here : List String}

/-! ## One segment -/

theorem walk_nil : tree.walk links here [] = some ⟨here, links⟩ := by
  cases links <;> rfl

theorem walk_file (h : tree.entry here = some .file) (segment : String) (rest : List String) :
    tree.walk links here (segment :: rest) = none := by
  cases links <;> simp only [walk, walkSegments, if_pos h]

theorem walk_still (h : tree.entry here ≠ some .file) {segment : String} (hsegment : segment = "" ∨ segment = ".")
    (rest : List String) : tree.walk links here (segment :: rest) = tree.walk links here rest := by
  cases links <;> simp only [walk, walkSegments, if_neg h, if_pos hsegment]

theorem walk_up (h : tree.entry here ≠ some .file) (rest : List String) :
    tree.walk links here (".." :: rest) =
      if tree.entry here = none then none else tree.walk links here.dropLast rest := by
  cases links <;> simp [walk, walkSegments, h]

theorem walk_name (h : tree.entry here ≠ some .file) {name : String} (hname : IsName name)
    (hlink : ∀ absolute target, tree.entry (here ++ [name]) ≠ some (.link absolute target)) (rest : List String) :
    tree.walk links here (name :: rest) = tree.walk links (here ++ [name]) rest := by
  have hstill : ¬ (name = "" ∨ name = ".") := not_or.mpr ⟨hname.1, hname.2.1⟩
  cases links <;> simp only [walk, walkSegments, if_neg h, if_neg hstill, if_neg hname.2.2]

theorem walk_link (h : tree.entry here ≠ some .file) {name : String} (hname : IsName name) {absolute : Bool}
    {target : List String} (hlink : tree.entry (here ++ [name]) = some (.link absolute target)) (rest : List String) :
    tree.walk links here (name :: rest) =
      match links with
      | 0 => none
      | links + 1 => tree.walk links (if absolute then [] else here) (target ++ rest) := by
  have hstill : ¬ (name = "" ∨ name = ".") := not_or.mpr ⟨hname.1, hname.2.1⟩
  cases links <;> simp only [walk, walkSegments, if_neg h, if_neg hstill, if_neg hname.2.2, hlink]

theorem segment_cases (tree : FileTree) (here : List String) (segment : String) :
    (segment = "" ∨ segment = ".") ∨ segment = ".." ∨
      IsName segment ∧ ((∃ absolute target, tree.entry (here ++ [segment]) = some (.link absolute target)) ∨
        ∀ absolute target, tree.entry (here ++ [segment]) ≠ some (.link absolute target)) := by
  by_cases hstill : segment = "" ∨ segment = "."
  · exact .inl hstill
  by_cases hup : segment = ".."
  · exact .inr (.inl hup)
  obtain ⟨hempty, hdot⟩ := not_or.mp hstill
  refine .inr (.inr ⟨⟨hempty, hdot, hup⟩, ?_⟩)
  by_cases hlink : ∃ absolute target, tree.entry (here ++ [segment]) = some (.link absolute target)
  · exact .inl hlink
  · refine .inr ?_
    intro absolute target hentry
    exact hlink ⟨absolute, target, hentry⟩

theorem walk_append (links : Nat) (here path more : List String) :
    tree.walk links here (path ++ more) =
      (tree.walk links here path).bind fun w => tree.walk w.linksLeft w.location more := by
  induction links using Nat.strong_induction_on generalizing here path with
  | _ links ihlinks =>
    induction path generalizing here with
    | nil => rw [walk_nil, Option.bind_some, List.nil_append]
    | cons segment path ih =>
      rw [List.cons_append]
      by_cases hfile : tree.entry here = some .file
      · rw [walk_file hfile, walk_file hfile, Option.bind_none]
      rcases segment_cases tree here segment with hstill | rfl | ⟨hname, ⟨absolute, target, hlink⟩ | hlink⟩
      · rw [walk_still hfile hstill, walk_still hfile hstill, ih]
      · rw [walk_up hfile, walk_up hfile]
        split
        · rfl
        · rw [ih]
      · rw [walk_link hfile hname hlink, walk_link hfile hname hlink]
        cases links with
        | zero => rfl
        | succ links =>
          dsimp only
          rw [← List.append_assoc, ihlinks links (Nat.lt_succ_self links)]
      · rw [walk_name hfile hname hlink, walk_name hfile hname hlink, ih]

/-! ## Where nothing is -/

theorem entry_child_of_none (h : tree.entry here = none) (name : String) : tree.entry (here ++ [name]) = none := by
  by_contra hchild
  rw [tree.parent here name hchild] at h
  cases h

theorem walk_missing (h : tree.entry here = none) {path : List String} (hpath : ∀ name ∈ path, IsName name) :
    tree.walk links here path = some ⟨here ++ path, links⟩ := by
  induction path generalizing here with
  | nil => rw [walk_nil, List.append_nil]
  | cons name path ih =>
    have hchild := entry_child_of_none h name
    rw [walk_name (by rw [h]; nofun) (hpath name List.mem_cons_self) (by rw [hchild]; nofun),
      ih hchild fun n hn => hpath n (List.mem_cons_of_mem name hn), List.append_assoc]
    rfl

theorem entry_of_walk_missing (h : tree.entry here = none) {path : List String} {w : Walked}
    (hwalk : tree.walk links here path = some w) : tree.entry w.location = none := by
  induction path generalizing here with
  | nil =>
    rw [walk_nil] at hwalk
    obtain rfl := Option.some.inj hwalk
    exact h
  | cons segment path ih =>
    have hfile : tree.entry here ≠ some .file := by
      rw [h]
      nofun
    have hchild := entry_child_of_none h segment
    rcases segment_cases tree here segment with hstill | rfl | ⟨hname, ⟨absolute, target, hlink⟩ | hlink⟩
    · rw [walk_still hfile hstill] at hwalk
      exact ih h hwalk
    · rw [walk_up hfile, if_pos h] at hwalk
      cases hwalk
    · rw [hchild] at hlink
      cases hlink
    · rw [walk_name hfile hname hlink] at hwalk
      exact ih hchild hwalk

theorem present_iff {path : List String} :
    tree.present links path = true ↔ ∃ w, tree.walk links [] path = some w ∧ tree.entry w.location ≠ none := by
  unfold present
  cases tree.walk links [] path with
  | none => simp
  | some w => simp [Option.isSome_iff_ne_none]

theorem present_of_append {path more : List String} (h : tree.present links (path ++ more) = true) :
    tree.present links path = true := by
  obtain ⟨w, hwalk, hentry⟩ := present_iff.mp h
  rw [walk_append] at hwalk
  obtain ⟨w', hwalk', hmore⟩ := Option.bind_eq_some_iff.mp hwalk
  exact present_iff.mpr ⟨w', hwalk', fun hnone => hentry (entry_of_walk_missing hnone hmore)⟩

/-! ## Locations -/

/-- A location that is its own path: no link on its way, and no file above it. -/
inductive Settled (tree : FileTree) : List String → Prop where
  | root : Settled tree []
  | down {here : List String} {name : String} (h : Settled tree here) (hname : IsName name)
      (hfile : tree.entry here ≠ some .file)
      (hlink : ∀ absolute target, tree.entry (here ++ [name]) ≠ some (.link absolute target)) :
      Settled tree (here ++ [name])

namespace Settled

theorem dropLast (h : Settled tree here) : Settled tree here.dropLast := by
  cases h with
  | root => exact .root
  | down h hname hfile hlink =>
    rw [List.dropLast_concat]
    exact h

theorem names (h : Settled tree here) : ∀ name ∈ here, IsName name := by
  induction h with
  | root => exact nofun
  | down h hname hfile hlink ih =>
    intro name hmem
    rcases List.mem_append.mp hmem with hmem | hmem
    · exact ih name hmem
    · rw [List.mem_singleton.mp hmem]
      exact hname

theorem isPrefix {above : List String} (h : Settled tree here) (habove : above <+: here) : Settled tree above := by
  induction h with
  | root =>
    rw [List.prefix_nil.mp habove]
    exact .root
  | down h hname hfile hlink ih =>
    rcases List.prefix_concat_iff.mp habove with rfl | habove
    · exact .down h hname hfile hlink
    · exact ih habove

theorem not_link (h : Settled tree here) (absolute : Bool) (target : List String) :
    tree.entry here ≠ some (.link absolute target) := by
  cases h with
  | root =>
    rw [tree.root]
    nofun
  | down h hname hfile hlink => exact hlink absolute target

theorem not_file_of_append {name : String} {rest : List String} (h : Settled tree (here ++ name :: rest)) :
    tree.entry here ≠ some .file := by
  have hchild : Settled tree (here ++ [name]) := h.isPrefix ⟨rest, by simp⟩
  generalize hcs : here ++ [name] = child at hchild
  cases hchild with
  | root => simp at hcs
  | down h hname hfile hlink =>
    obtain ⟨rfl, -⟩ := List.append_inj' hcs rfl
    exact hfile

theorem walk (h : Settled tree here) (links : Nat) : tree.walk links [] here = some ⟨here, links⟩ := by
  induction h with
  | root => exact walk_nil
  | down h hname hfile hlink ih =>
    rw [walk_append, ih, Option.bind_some, walk_name hfile hname hlink, walk_nil]

end Settled

theorem settled_of_walk {path : List String} {w : Walked} (hwalk : tree.walk links here path = some w)
    (h : Settled tree here) : Settled tree w.location := by
  induction links using Nat.strong_induction_on generalizing here path with
  | _ links ihlinks =>
    induction path generalizing here with
    | nil =>
      rw [walk_nil] at hwalk
      obtain rfl := Option.some.inj hwalk
      exact h
    | cons segment path ih =>
      by_cases hfile : tree.entry here = some .file
      · rw [walk_file hfile] at hwalk
        cases hwalk
      rcases segment_cases tree here segment with hstill | rfl | ⟨hname, ⟨absolute, target, hlink⟩ | hlink⟩
      · rw [walk_still hfile hstill] at hwalk
        exact ih hwalk h
      · rw [walk_up hfile] at hwalk
        split at hwalk
        · cases hwalk
        · exact ih hwalk h.dropLast
      · rw [walk_link hfile hname hlink] at hwalk
        cases links with
        | zero => cases hwalk
        | succ links =>
          refine ihlinks links (Nat.lt_succ_self links) hwalk ?_
          split
          · exact .root
          · exact h
      · rw [walk_name hfile hname hlink] at hwalk
        exact ih hwalk (.down h hname hfile hlink)

/-! ## Dangling links -/

/-- On the way along the path lies a link behind which nothing is. -/
def Dangles (tree : FileTree) (links : Nat) (path : List String) : Prop :=
  ∃ before name rest w absolute target, path = before ++ name :: rest ∧ tree.walk links [] before = some w ∧
    tree.entry (w.location ++ [name]) = some (.link absolute target) ∧ tree.present links (before ++ [name]) = false

/-- The path up to the first segment that is not there, with what is left of it. -/
structure FirstMissing (tree : FileTree) (links : Nat) (path before rest : List String) (w : Walked) : Prop where
  split : path = before ++ rest
  walked : tree.walk links [] before = some w
  present : tree.entry w.location ≠ none
  missing : ∀ name more, rest = name :: more → tree.present links (before ++ [name]) = false

theorem FirstMissing.before_eq {path before before' rest rest' : List String} {name' : String} {w : Walked}
    (h : FirstMissing tree links path before rest w) (hsplit : path = before' ++ name' :: rest')
    (hpresent : tree.present links before' = true) (hmissing : tree.present links (before' ++ [name']) = false) :
    before = before' ∧ rest = name' :: rest' := by
  have hsame := h.split.symm.trans hsplit
  rcases List.append_eq_append_iff.mp hsame with ⟨more, rfl, hrest⟩ | ⟨more, rfl, hrest⟩
  · cases more with
    | nil =>
      rw [List.append_nil]
      exact ⟨rfl, hrest⟩
    | cons name more =>
      have hgone := h.missing name (more ++ name' :: rest') hrest
      rw [show before ++ name :: more = before ++ [name] ++ more by simp] at hpresent
      rw [present_of_append hpresent] at hgone
      cases hgone
  · cases more with
    | nil =>
      rw [List.append_nil]
      exact ⟨rfl, hrest.symm⟩
    | cons name more =>
      obtain ⟨rfl, -⟩ := List.cons.inj hrest
      have hthere : tree.present links (before' ++ name' :: more) = true := present_iff.mpr ⟨w, h.walked, h.present⟩
      rw [show before' ++ name' :: more = before' ++ [name'] ++ more by simp] at hthere
      rw [present_of_append hthere] at hmissing
      cases hmissing

theorem FirstMissing.walk {path before rest : List String} {w w' : Walked}
    (h : FirstMissing tree links path before rest w) (hnames : ∀ name ∈ path, IsName name)
    (hdangles : ¬ Dangles tree links path) (hwalk : tree.walk links [] path = some w') :
    w'.location = w.location ++ rest := by
  rw [h.split, walk_append, h.walked, Option.bind_some] at hwalk
  cases hrest : rest with
  | nil =>
    rw [hrest, walk_nil] at hwalk
    rw [← Option.some.inj hwalk, List.append_nil]
  | cons name more =>
    rw [hrest] at hwalk
    have hmissing := h.missing name more hrest
    have hname : ∀ n ∈ name :: more, IsName n := by
      intro n hn
      apply hnames n
      rw [h.split, hrest]
      exact List.mem_append_right _ hn
    by_cases hfile : tree.entry w.location = some .file
    · rw [walk_file hfile] at hwalk
      cases hwalk
    cases hentry : tree.entry (w.location ++ [name]) with
    | none =>
      have hlink : ∀ absolute target, tree.entry (w.location ++ [name]) ≠ some (.link absolute target) := by
        rw [hentry]
        nofun
      rw [walk_name hfile (hname name List.mem_cons_self) hlink,
        walk_missing hentry fun n hn => hname n (List.mem_cons_of_mem name hn), List.append_assoc] at hwalk
      rw [← Option.some.inj hwalk]
      rfl
    | some e =>
      exfalso
      cases e with
      | link absolute target =>
        exact hdangles ⟨before, name, more, w, absolute, target, hrest ▸ h.split, h.walked, hentry, hmissing⟩
      | _ =>
        have hlink : ∀ absolute target, tree.entry (w.location ++ [name]) ≠ some (.link absolute target) := by
          rw [hentry]
          nofun
        have hthere : tree.present links (before ++ [name]) = true := by
          refine present_iff.mpr ⟨⟨w.location ++ [name], w.linksLeft⟩, ?_, by rw [hentry]; nofun⟩
          rw [walk_append, h.walked, Option.bind_some, walk_name hfile (hname name List.mem_cons_self) hlink, walk_nil]
        rw [hthere] at hmissing
        cases hmissing

/-- Where what is there of a path of names, with the rest behind, has no link on its way and no file above it, the path
reaches it, and no link dangles. -/
theorem FirstMissing.of_settled {path before rest : List String} {w : Walked}
    (h : FirstMissing tree links path before rest w) (hnames : ∀ name ∈ path, IsName name)
    (hsettled : Settled tree (w.location ++ rest)) :
    ¬ Dangles tree links path ∧ ∃ w', tree.walk links [] path = some w' ∧ w'.location = w.location ++ rest := by
  have hnames' : ∀ name ∈ rest, IsName name := by
    intro name hname
    apply hnames name
    rw [h.split]
    exact List.mem_append_right _ hname
  constructor
  · rintro ⟨before', name, rest', w', absolute, target, hsplit, hwalk, hlink, hmissing⟩
    have hdir := tree.parent w'.location name (by rw [hlink]; nofun)
    have hpresent : tree.present links before' = true := present_iff.mpr ⟨w', hwalk, by rw [hdir]; nofun⟩
    obtain ⟨rfl, rfl⟩ := h.before_eq hsplit hpresent hmissing
    obtain rfl := Option.some.inj (h.walked.symm.trans hwalk)
    have hchild : Settled tree (w.location ++ [name]) := hsettled.isPrefix ⟨rest', by simp⟩
    exact hchild.not_link absolute target hlink
  · rw [h.split, walk_append, h.walked, Option.bind_some]
    cases rest with
    | nil => exact ⟨w, by rw [walk_nil], (List.append_nil _).symm⟩
    | cons name more =>
      have hfile := hsettled.not_file_of_append
      have hchild : Settled tree (w.location ++ [name]) := hsettled.isPrefix ⟨more, by simp⟩
      have hname := hnames' name List.mem_cons_self
      have hnone : tree.entry (w.location ++ [name]) = none := by
        by_contra hthere
        have hpresent : tree.present links (before ++ [name]) = true := by
          refine present_iff.mpr ⟨⟨w.location ++ [name], w.linksLeft⟩, ?_, hthere⟩
          rw [walk_append, h.walked, Option.bind_some, walk_name hfile hname hchild.not_link, walk_nil]
        rw [h.missing name more rfl] at hpresent
        cases hpresent
      refine ⟨⟨w.location ++ [name] ++ more, w.linksLeft⟩, ?_, by simp⟩
      rw [walk_name hfile hname hchild.not_link,
        walk_missing hnone fun n hn => hnames' n (List.mem_cons_of_mem name hn)]

end FileTree

end NeonDiff.Lib
