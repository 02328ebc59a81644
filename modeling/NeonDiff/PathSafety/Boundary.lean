import NeonDiff.PathSafety.Model

/-! # What the boundary keeps out

The assertion compares paths as it resolves them. It resolves a path to the location that the system reaches as long as
no link dangles on the path's way and no step up follows a link; a dangling link it leaves as a name, and then misses
whatever the link points into.
-/

namespace NeonDiff.PathSafety

open NeonDiff.Lib NeonDiff.Lib.FileTree

variable {tree : FileTree} {maxLinks : Nat} {cwd : WorkingDirectory tree}

/-! ## Resolved paths -/

theorem names_normalize {here : List String} (h : ∀ name ∈ here, IsName name) (segments : List String) :
    ∀ name ∈ normalize here segments, IsName name := by
  induction segments generalizing here with
  | nil => exact h
  | cons segment rest ih =>
    unfold normalize
    split
    · exact ih h
    rename_i hstill
    obtain ⟨hempty, hdot⟩ := not_or.mp hstill
    split
    · exact ih fun name hname => h name (List.dropLast_subset here hname)
    rename_i hup
    apply ih
    intro name hname
    rcases List.mem_append.mp hname with hname | hname
    · exact h name hname
    · rw [List.mem_singleton.mp hname]
      exact ⟨hempty, hdot, hup⟩

theorem names_resolve (path : Path) : ∀ name ∈ resolve tree cwd path, IsName name := by
  apply names_normalize
  split
  · exact nofun
  · exact cwd.settled.names

theorem normalize_names {here path : List String} (h : ∀ name ∈ path, IsName name) :
    normalize here path = here ++ path := by
  induction path generalizing here with
  | nil => exact (List.append_nil here).symm
  | cons name path ih =>
    obtain ⟨hempty, hdot, hup⟩ := h name List.mem_cons_self
    unfold normalize
    rw [if_neg (not_or.mpr ⟨hempty, hdot⟩), if_neg hup, ih fun n hn => h n (List.mem_cons_of_mem name hn),
      List.append_assoc]
    rfl

theorem realpath_eq_some {path location : List String} :
    realpath tree maxLinks path = some location ↔
      ∃ w, tree.walk maxLinks [] path = some w ∧ tree.entry w.location ≠ none ∧ w.location = location := by
  unfold realpath existsSync
  constructor
  · intro h
    split at h
    · rename_i hpresent
      obtain ⟨w, hwalk, hentry⟩ := present_iff.mp hpresent
      rw [hwalk] at h
      exact ⟨w, hwalk, hentry, Option.some.inj h⟩
    · cases h
  · rintro ⟨w, hwalk, hentry, rfl⟩
    rw [if_pos (present_iff.mpr ⟨w, hwalk, hentry⟩), hwalk]
    rfl

theorem realpath_eq_none {path : List String} :
    realpath tree maxLinks path = none ↔ tree.present maxLinks path = false := by
  unfold realpath existsSync
  constructor
  · intro h
    split at h
    · rename_i hpresent
      obtain ⟨w, hwalk, -⟩ := present_iff.mp hpresent
      rw [hwalk] at h
      cases h
    · rename_i hpresent
      simpa using hpresent
  · intro h
    rw [if_neg (by rw [h]; exact Bool.false_ne_true)]

theorem climb_spec (absolutePath up missing : List String)
    (hmissing : ∀ name more, missing = name :: more → tree.present maxLinks (up.reverse ++ [name]) = false) :
    ∃ before rest w, FirstMissing tree maxLinks (up.reverse ++ missing) before rest w ∧
      climb tree maxLinks absolutePath up missing = w.location ++ rest := by
  induction up generalizing missing with
  | nil =>
    refine ⟨[], missing, ⟨[], maxLinks⟩, ⟨rfl, walk_nil, ?_, hmissing⟩, ?_⟩
    · rw [tree.root]
      nofun
    · have hroot : realpath tree maxLinks [] = some [] :=
        realpath_eq_some.mpr ⟨⟨[], maxLinks⟩, walk_nil, by rw [tree.root]; nofun, rfl⟩
      rw [climb, hroot]
      rfl
  | cons name parent ih =>
    unfold climb
    cases hreal : realpath tree maxLinks (name :: parent).reverse with
    | some real =>
      obtain ⟨w, hwalk, hentry, rfl⟩ := realpath_eq_some.mp hreal
      exact ⟨_, missing, w, ⟨rfl, hwalk, hentry, hmissing⟩, rfl⟩
    | none =>
      have hgone := realpath_eq_none.mp hreal
      rw [List.reverse_cons] at hgone
      obtain ⟨before, rest, w, hfirst, hclimb⟩ := ih (name :: missing) (by
        intro n more hn
        obtain ⟨rfl, -⟩ := List.cons.inj hn
        exact hgone)
      refine ⟨before, rest, w, ?_, hclimb⟩
      rwa [List.reverse_cons, List.append_assoc]

theorem resolvePath_spec (path : Path) :
    ∃ before rest w, FirstMissing tree maxLinks (resolve tree cwd path) before rest w ∧
      resolvePathFollowingExistingSymlinks tree maxLinks cwd path = w.location ++ rest := by
  unfold resolvePathFollowingExistingSymlinks
  dsimp only
  cases hreal : realpath tree maxLinks (resolve tree cwd path) with
  | some real =>
    obtain ⟨w, hwalk, hentry, rfl⟩ := realpath_eq_some.mp hreal
    refine ⟨_, [], w, ⟨(List.append_nil _).symm, hwalk, hentry, nofun⟩, ?_⟩
    rw [List.append_nil]
    rfl
  | none =>
    obtain ⟨before, rest, w, hfirst, hclimb⟩ :=
      @climb_spec tree maxLinks (resolve tree cwd path) (resolve tree cwd path).reverse [] nofun
    rw [List.reverse_reverse, List.append_nil] at hfirst
    exact ⟨before, rest, w, hfirst, hclimb⟩

theorem names_resolvePath (path : Path) :
    ∀ name ∈ resolvePathFollowingExistingSymlinks tree maxLinks cwd path, IsName name := by
  obtain ⟨before, rest, w, hfirst, hresolved⟩ := @resolvePath_spec tree maxLinks cwd path
  rw [hresolved]
  intro name hname
  rcases List.mem_append.mp hname with hname | hname
  · exact (settled_of_walk hfirst.walked .root).names name hname
  · apply names_resolve path name
    rw [hfirst.split]
    exact List.mem_append_right _ hname

theorem resolvePath_settled {location : List String} (h : Settled tree location) :
    resolvePathFollowingExistingSymlinks tree maxLinks cwd ⟨true, location⟩ = location := by
  have hresolve : resolve tree cwd ⟨true, location⟩ = location := normalize_names h.names
  obtain ⟨before, rest, w, hfirst, hresolved⟩ := @resolvePath_spec tree maxLinks cwd ⟨true, location⟩
  rw [hresolve] at hfirst
  have hdangles : ¬ Dangles tree maxLinks location := by
    rintro ⟨before', name, rest', w', absolute, target, rfl, hwalk, hlink, -⟩
    have habove : Settled tree before' := h.isPrefix (List.prefix_append _ _)
    rw [habove.walk] at hwalk
    obtain rfl := Option.some.inj hwalk
    have hchild : Settled tree (before' ++ [name]) := h.isPrefix ⟨rest', by simp⟩
    exact hchild.not_link absolute target hlink
  rw [hresolved]
  exact (hfirst.walk h.names hdangles (h.walk maxLinks)).symm

theorem settled_of_reach {path : Path} {location : List String} (h : reach tree maxLinks cwd path = some location) :
    Settled tree location := by
  unfold reach at h
  split at h
  · cases h
  obtain ⟨w, hwalk, rfl⟩ := Option.map_eq_some_iff.mp h
  apply settled_of_walk hwalk
  split
  · exact .root
  · exact cwd.settled

/-! ## The comparison -/

/-- One location is the other, or inside it. -/
def Overlap (a b : List String) : Prop := a <+: b ∨ b <+: a

theorem isSameOrChild_relative {a b : List String} (h : ∀ name ∈ b, IsName name) :
    isSameOrChildRelativePath (relative a b) = true ↔ a <+: b := by
  induction a generalizing b with
  | nil =>
    have hparent : ∀ n : String, b.head? = some n → n ≠ ".." := fun n hn => (h n (List.mem_of_mem_head? hn)).2.2
    have hrel : relative [] b = b := by
      cases b <;> rfl
    rw [hrel]
    simp only [isSameOrChildRelativePath, isParentRelativePath, List.nil_prefix, iff_true, Bool.or_eq_true,
      Bool.not_eq_true', decide_eq_true_eq, decide_eq_false_iff_not]
    exact .inr fun hhead => hparent _ hhead rfl
  | cons x xs ih =>
    cases b with
    | nil => simp [relative, isSameOrChildRelativePath, isParentRelativePath, List.replicate_succ]
    | cons y ys =>
      unfold relative
      by_cases hxy : x = y
      · rw [if_pos hxy, ih fun name hname => h name (List.mem_cons_of_mem y hname), hxy, List.prefix_cons_inj]
      · rw [if_neg hxy]
        simp [isSameOrChildRelativePath, isParentRelativePath, List.replicate_succ, hxy]

theorem assertSingle_ok {boundary : PathBoundary} {protectedRoot : List String} :
    assertPathOutsideSingleProtectedRoot tree maxLinks cwd boundary protectedRoot = .ok () ↔
      ¬ Overlap (resolvePathFollowingExistingSymlinks tree maxLinks cwd ⟨true, protectedRoot⟩)
        (resolvePathFollowingExistingSymlinks tree maxLinks cwd boundary.path) := by
  unfold assertPathOutsideSingleProtectedRoot
  dsimp only
  rw [Overlap, ← isSameOrChild_relative (names_resolvePath boundary.path), ← isSameOrChild_relative (names_resolvePath _),
    ← Bool.or_eq_true]
  split
  · rename_i hoverlap
    simp [hoverlap]
  · rename_i hoverlap
    simp [hoverlap]

theorem mem_uniqueDefinedPathsLoop {paths : List (Option Path)} {output : List (List String)} {root : List String} :
    root ∈ uniqueDefinedPathsLoop tree maxLinks cwd output paths ↔
      root ∈ output ∨ ∃ path, some path ∈ paths ∧ path.isEmpty = false ∧
        resolvePathFollowingExistingSymlinks tree maxLinks cwd path = root := by
  induction paths generalizing output with
  | nil => simp [uniqueDefinedPathsLoop]
  | cons given paths ih =>
    unfold uniqueDefinedPathsLoop
    cases hgiven : given.filter (!·.isEmpty) with
    | none =>
      have hempty : ∀ path, given = some path → path.isEmpty = true := by
        rintro path rfl
        simpa using hgiven
      dsimp only
      rw [ih]
      constructor
      · rintro (hmem | ⟨path, hpath, hrest⟩)
        · exact .inl hmem
        · exact .inr ⟨path, List.mem_cons_of_mem _ hpath, hrest⟩
      · rintro (hmem | ⟨path, hpath, hsome, hroot⟩)
        · exact .inl hmem
        rcases List.mem_cons.mp hpath with heq | hpath
        · rw [hempty path heq.symm] at hsome
          cases hsome
        · exact .inr ⟨path, hpath, hsome, hroot⟩
    | some path =>
      obtain ⟨rfl, hsome⟩ := Option.filter_eq_some_iff.mp hgiven
      have hsome : path.isEmpty = false := by simpa using hsome
      -- the first place of the list gives what the output then holds
      have hhead : (∃ p, some p ∈ some path :: paths ∧ p.isEmpty = false ∧
            resolvePathFollowingExistingSymlinks tree maxLinks cwd p = root) ↔
          resolvePathFollowingExistingSymlinks tree maxLinks cwd path = root ∨
            ∃ p, some p ∈ paths ∧ p.isEmpty = false ∧ resolvePathFollowingExistingSymlinks tree maxLinks cwd p = root := by
        constructor
        · rintro ⟨p, hp, hempty, hroot⟩
          rcases List.mem_cons.mp hp with heq | hp
          · rw [Option.some.inj heq] at hroot
            exact .inl hroot
          · exact .inr ⟨p, hp, hempty, hroot⟩
        · rintro (hroot | ⟨p, hp, hrest⟩)
          · exact ⟨path, List.mem_cons_self, hsome, hroot⟩
          · exact ⟨p, List.mem_cons_of_mem _ hp, hrest⟩
      dsimp only
      rw [hhead]
      split
      · rename_i hcontains
        rw [List.contains_iff_mem] at hcontains
        rw [ih]
        constructor
        · rintro (hmem | hmore)
          · exact .inl hmem
          · exact .inr (.inr hmore)
        · rintro (hmem | rfl | hmore)
          · exact .inl hmem
          · exact .inl hcontains
          · exact .inr hmore
      · rw [ih, List.mem_append, List.mem_singleton, or_assoc, eq_comm (a := root)]

theorem mem_uniqueDefinedPaths {paths : List (Option Path)} {root : List String} :
    root ∈ uniqueDefinedPaths tree maxLinks cwd paths ↔
      ∃ path, some path ∈ paths ∧ path.isEmpty = false ∧
        resolvePathFollowingExistingSymlinks tree maxLinks cwd path = root := by
  unfold uniqueDefinedPaths
  rw [mem_uniqueDefinedPathsLoop]
  simp

theorem forM_ok {α : Type} {f : α → Except String Unit} {items : List α} :
    items.forM f = .ok () ↔ ∀ a ∈ items, f a = .ok () := by
  induction items with
  | nil => simp [List.forM, pure, Except.pure]
  | cons a items ih =>
    show (f a >>= fun _ => items.forM f) = .ok () ↔ _
    cases ha : f a with
    | error e => simp [ha, bind, Except.bind]
    | ok u => simpa [ha, bind, Except.bind] using ih

theorem assert_ok {boundary : PathBoundary} :
    assertPathOutsideProtectedRoot tree maxLinks cwd boundary = .ok () ↔
      ∀ root, some root ∈ boundary.roots → root.isEmpty = false →
        ¬ Overlap (resolvePathFollowingExistingSymlinks tree maxLinks cwd
            ⟨true, resolvePathFollowingExistingSymlinks tree maxLinks cwd root⟩)
          (resolvePathFollowingExistingSymlinks tree maxLinks cwd boundary.path) := by
  unfold assertPathOutsideProtectedRoot
  rw [forM_ok]
  constructor
  · intro h root hroot hempty
    exact assertSingle_ok.mp (h _ (mem_uniqueDefinedPaths.mpr ⟨root, hroot, hempty, rfl⟩))
  · intro h root hroot
    obtain ⟨path, hpath, hempty, rfl⟩ := mem_uniqueDefinedPaths.mp hroot
    exact assertSingle_ok.mpr (h path hpath hempty)

/-! ## Where the assertion is right -/

def Resolves (tree : FileTree) (maxLinks : Nat) (cwd : WorkingDirectory tree) (path : Path) : Prop :=
  ∀ location, reach tree maxLinks cwd path = some location →
    ¬ Dangles tree maxLinks (resolve tree cwd path) ∧
      ∃ w, tree.walk maxLinks [] (resolve tree cwd path) = some w ∧ w.location = location

def Straight (tree : FileTree) (maxLinks : Nat) (cwd : WorkingDirectory tree) (path : Path) : Prop :=
  ∀ location, reach tree maxLinks cwd path = some location →
    (¬ Dangles tree maxLinks (resolve tree cwd path) ∧
      ∃ w, tree.walk maxLinks [] (resolve tree cwd path) = some w ∧ w.location <+: location) ∨
    (tree.entry location = some .file ∧ ∃ before more w, resolve tree cwd path = before ++ more ∧
      tree.walk maxLinks [] before = some w ∧ w.location = location)

theorem resolvePath_of_walk {path : Path} {w : Walked} (hdangles : ¬ Dangles tree maxLinks (resolve tree cwd path))
    (hwalk : tree.walk maxLinks [] (resolve tree cwd path) = some w) :
    resolvePathFollowingExistingSymlinks tree maxLinks cwd path = w.location := by
  obtain ⟨before, rest, w', hfirst, hresolved⟩ := @resolvePath_spec tree maxLinks cwd path
  rw [hresolved, hfirst.walk (names_resolve path) hdangles hwalk]

theorem resolvePath_below_file {path : Path} {before more : List String} {w : Walked}
    (hsplit : resolve tree cwd path = before ++ more) (hwalk : tree.walk maxLinks [] before = some w)
    (hfile : tree.entry w.location = some .file) :
    resolvePathFollowingExistingSymlinks tree maxLinks cwd path = w.location ++ more := by
  obtain ⟨before', rest, w', hfirst, hresolved⟩ := @resolvePath_spec tree maxLinks cwd path
  have hpresent : tree.present maxLinks before = true := present_iff.mpr ⟨w, hwalk, by rw [hfile]; nofun⟩
  rw [hresolved]
  cases more with
  | nil =>
    rw [List.append_nil] at hsplit
    cases hrest : rest with
    | nil =>
      have hsame := hfirst.split
      rw [hrest, List.append_nil, hsplit] at hsame
      have hwalk' := hfirst.walked
      rw [← hsame, hwalk] at hwalk'
      rw [Option.some.inj hwalk']
    | cons name more =>
      have hgone := hfirst.missing name more hrest
      have hsame := hfirst.split
      rw [hrest, hsplit, show before' ++ name :: more = before' ++ [name] ++ more by simp] at hsame
      rw [hsame] at hpresent
      rw [present_of_append hpresent] at hgone
      cases hgone
  | cons name more =>
    have hgone : tree.present maxLinks (before ++ [name]) = false := by
      rw [← Bool.not_eq_true, present_iff]
      rintro ⟨w'', hwalk'', -⟩
      rw [walk_append, hwalk, Option.bind_some, walk_file hfile] at hwalk''
      cases hwalk''
    obtain ⟨rfl, rfl⟩ := hfirst.before_eq hsplit hpresent hgone
    rw [Option.some.inj (hfirst.walked.symm.trans hwalk)]

theorem straight_iff {path : Path} :
    Straight tree maxLinks cwd path ↔ ∀ location, reach tree maxLinks cwd path = some location →
      resolvePathFollowingExistingSymlinks tree maxLinks cwd path <+: location ∨
        tree.entry location = some .file ∧
          location <+: resolvePathFollowingExistingSymlinks tree maxLinks cwd path := by
  constructor
  · intro h location hreach
    rcases h location hreach with ⟨hdangles, w, hwalk, hbegin⟩ | ⟨hfile, before, more, w, hsplit, hwalk, rfl⟩
    · rw [resolvePath_of_walk hdangles hwalk]
      exact .inl hbegin
    · rw [resolvePath_below_file hsplit hwalk hfile]
      exact .inr ⟨hfile, List.prefix_append _ _⟩
  · intro h location hreach
    have hsettled := settled_of_reach hreach
    obtain ⟨before, rest, w, hfirst, hresolved⟩ := @resolvePath_spec tree maxLinks cwd path
    rw [hresolved] at h
    rcases h location hreach with hbegin | ⟨hfile, hbegin⟩
    · obtain ⟨hdangles, w', hwalk, hlocation⟩ :=
        hfirst.of_settled (names_resolve path) (hsettled.isPrefix hbegin)
      exact .inl ⟨hdangles, w', hwalk, by rw [hlocation]; exact hbegin⟩
    · refine .inr ⟨hfile, before, rest, w, hfirst.split, hfirst.walked, ?_⟩
      -- the file is what the walk has come to: above it nothing is a file, below it nothing is there
      obtain ⟨tail, htail⟩ := hbegin
      rcases List.append_eq_append_iff.mp htail with ⟨part, hpart, -⟩ | ⟨part, hpart, hrest⟩
      · cases part with
        | nil => rw [hpart, List.append_nil]
        | cons name more =>
          have hwsettled := settled_of_walk hfirst.walked .root
          rw [hpart] at hwsettled
          exact absurd hfile hwsettled.not_file_of_append
      · cases part with
        | nil => rw [hpart, List.append_nil]
        | cons name more =>
          exfalso
          have hgone := hfirst.missing name (more ++ tail) hrest
          rw [hpart] at hsettled hfile
          have hchild : Settled tree (w.location ++ [name]) := hsettled.isPrefix ⟨more, by simp⟩
          have hthere : tree.entry (w.location ++ [name]) ≠ none := by
            intro hnone
            have hbelow := @walk_missing tree maxLinks _ hnone more fun n hn =>
              hsettled.names n (List.mem_append_right _ (List.mem_cons_of_mem name hn))
            have hnone' := entry_of_walk_missing hnone hbelow
            rw [show w.location ++ name :: more = w.location ++ [name] ++ more by simp] at hfile
            rw [hfile] at hnone'
            cases hnone'
          have hpresent : tree.present maxLinks (before ++ [name]) = true := by
            refine present_iff.mpr ⟨⟨w.location ++ [name], w.linksLeft⟩, ?_, hthere⟩
            rw [walk_append, hfirst.walked, Option.bind_some, walk_name hsettled.not_file_of_append
              (hsettled.names name (List.mem_append_right _ List.mem_cons_self)) hchild.not_link, walk_nil]
          rw [hpresent] at hgone
          cases hgone

theorem reach_settled {location : List String} (h : Settled tree location) :
    reach tree maxLinks cwd ⟨true, location⟩ = some location := by
  unfold reach
  rw [if_neg (by simp [Path.isEmpty]), if_pos rfl, h.walk]
  rfl

theorem resolves_settled {location : List String} (h : Settled tree location) :
    Resolves tree maxLinks cwd ⟨true, location⟩ := by
  have hresolve : resolve tree cwd ⟨true, location⟩ = location := normalize_names h.names
  intro location' hreach
  rw [reach_settled h] at hreach
  obtain rfl := Option.some.inj hreach
  rw [hresolve]
  refine ⟨?_, _, h.walk maxLinks, rfl⟩
  obtain ⟨before, rest, w, hfirst, hresolved⟩ := @resolvePath_spec tree maxLinks cwd ⟨true, location⟩
  rw [resolvePath_settled h] at hresolved
  rw [hresolve] at hfirst
  exact (hfirst.of_settled h.names (hresolved ▸ h)).1

/-- A location that the path does not resolve above, and that is no file above what it resolves to, has beside it
another that overlaps with it and not with what the path resolves to. -/
theorem exists_overlap {location resolved : List String} (h : Settled tree location)
    (habove : ¬ resolved <+: location) (hfile : ¬ (tree.entry location = some .file ∧ location <+: resolved)) :
    ∃ root, Settled tree root ∧ Overlap root location ∧ ¬ Overlap root resolved := by
  by_cases hbelow : location <+: resolved
  · obtain ⟨tail, rfl⟩ := hbelow
    cases tail with
    | nil => exact absurd (by rw [List.append_nil]) habove
    | cons name more =>
      obtain ⟨other, hname, hother, hnone⟩ := tree.spare location name
      have hnotFile : tree.entry location ≠ some .file := fun hf => hfile ⟨hf, List.prefix_append _ _⟩
      refine ⟨location ++ [other], .down h hname hnotFile (by rw [hnone]; nofun), .inr (List.prefix_append _ _), ?_⟩
      rintro (hbegin | hbegin)
      · rw [List.prefix_append_right_inj, List.cons_prefix_cons] at hbegin
        exact hother hbegin.1
      · have hlonger := hbegin
        rw [List.prefix_append_right_inj, List.cons_prefix_cons] at hlonger
        exact hother hlonger.1.symm
  · refine ⟨location, h, .inl List.prefix_rfl, ?_⟩
    rintro (hbegin | hbegin)
    · exact hbelow hbegin
    · exact habove hbegin

/-! ## Paths without steps up -/

instance (segment : String) : Decidable (IsName segment) := inferInstanceAs (Decidable (_ ∧ _))

theorem normalize_eq_filter {here segments : List String} (hup : ".." ∉ segments) :
    normalize here segments = here ++ segments.filter (fun s => decide (IsName s)) := by
  induction segments generalizing here with
  | nil => exact (List.append_nil here).symm
  | cons segment rest ih =>
    obtain ⟨hsegment, hrest⟩ := not_or.mp (fun hmem => hup (List.mem_cons.mpr hmem))
    unfold normalize
    by_cases hstill : segment = "" ∨ segment = "."
    · have hno : ¬ IsName segment := fun hname => hstill.elim hname.1 hname.2.1
      rw [if_pos hstill, List.filter_cons_of_neg (by simpa using hno), ih hrest]
    · have hname : IsName segment := ⟨(not_or.mp hstill).1, (not_or.mp hstill).2, Ne.symm hsegment⟩
      rw [if_neg hstill, if_neg hname.2.2, List.filter_cons_of_pos (by simpa using hname), ih hrest, List.append_assoc]
      rfl

theorem walk_filter {links : Nat} {here segments : List String} {w : Walked} (hup : ".." ∉ segments)
    (hwalk : tree.walk links here segments = some w) :
    tree.walk links here (segments.filter fun s => decide (IsName s)) = some w := by
  induction segments generalizing links here with
  | nil => exact hwalk
  | cons segment rest ih =>
    obtain ⟨hsegment, hrest⟩ := not_or.mp (fun hmem => hup (List.mem_cons.mpr hmem))
    by_cases hstill : segment = "" ∨ segment = "."
    · have hno : ¬ IsName segment := fun hname => hstill.elim hname.1 hname.2.1
      rw [List.filter_cons_of_neg (by simpa using hno)]
      by_cases hfile : tree.entry here = some .file
      · rw [walk_file hfile] at hwalk
        cases hwalk
      rw [walk_still hfile hstill] at hwalk
      exact ih hrest hwalk
    · have hname : IsName segment := ⟨(not_or.mp hstill).1, (not_or.mp hstill).2, Ne.symm hsegment⟩
      rw [List.filter_cons_of_pos (by simpa using hname)]
      rw [show segment :: rest = [segment] ++ rest from rfl, walk_append] at hwalk
      obtain ⟨w', hfirst, hmore⟩ := Option.bind_eq_some_iff.mp hwalk
      rw [show segment :: rest.filter (fun s => decide (IsName s)) =
        [segment] ++ rest.filter (fun s => decide (IsName s)) from rfl, walk_append, hfirst, Option.bind_some]
      exact ih hrest hmore

theorem walk_resolve {path : Path} (hup : ".." ∉ path.segments) {location : List String}
    (hreach : reach tree maxLinks cwd path = some location) :
    ∃ w, tree.walk maxLinks [] (resolve tree cwd path) = some w ∧ w.location = location := by
  unfold reach at hreach
  split at hreach
  · cases hreach
  obtain ⟨w, hwalk, rfl⟩ := Option.map_eq_some_iff.mp hreach
  refine ⟨w, ?_, rfl⟩
  unfold resolve
  rw [normalize_eq_filter hup]
  have hstart : Settled tree (if path.absolute then [] else cwd.location) := by
    split
    · exact .root
    · exact cwd.settled
  rw [walk_append, hstart.walk, Option.bind_some]
  exact walk_filter hup hwalk

theorem Dangles.entry {path : List String} {w : Walked} (h : Dangles tree maxLinks path)
    (hwalk : tree.walk maxLinks [] path = some w) : tree.entry w.location = none := by
  obtain ⟨before, name, rest, w', absolute, target, rfl, -, -, hmissing⟩ := h
  rw [show before ++ name :: rest = before ++ [name] ++ rest by simp] at hwalk
  by_contra hthere
  have hpresent := present_of_append (present_iff.mpr ⟨w, hwalk, hthere⟩)
  rw [hpresent] at hmissing
  cases hmissing

theorem straight_iff_of_no_up {path : Path} (hup : ".." ∉ path.segments) :
    Straight tree maxLinks cwd path ↔
      (reach tree maxLinks cwd path).isSome = true → ¬ Dangles tree maxLinks (resolve tree cwd path) := by
  constructor
  · intro h hsome hdangles
    obtain ⟨location, hreach⟩ := Option.isSome_iff_exists.mp hsome
    obtain ⟨w, hwalk, rfl⟩ := walk_resolve hup hreach
    rcases h _ hreach with ⟨hnot, -⟩ | ⟨hfile, -⟩
    · exact hnot hdangles
    · rw [Dangles.entry hdangles hwalk] at hfile
      cases hfile
  · intro h location hreach
    obtain ⟨w, hwalk, rfl⟩ := walk_resolve hup hreach
    exact .inl ⟨h (by rw [hreach]; rfl), w, hwalk, List.prefix_rfl⟩

/-- For every set of protected roots that resolve to their locations, the assertion accepts a path only if the location
that the path reaches overlaps with none of theirs: this holds of the straight paths, and of no others. A path without
steps up that reaches anything is straight when no link on its way dangles. -/
theorem accepted_outside_iff (tree : FileTree) (maxLinks : Nat) (cwd : WorkingDirectory tree) (path : Path) :
    ((∀ boundary : PathBoundary, boundary.path = path →
      (∀ root, some root ∈ boundary.roots → Resolves tree maxLinks cwd root) →
      assertPathOutsideProtectedRoot tree maxLinks cwd boundary = .ok () →
      ∀ location, reach tree maxLinks cwd path = some location →
      ∀ root, some root ∈ boundary.roots → ∀ rootLocation, reach tree maxLinks cwd root = some rootLocation →
        ¬ Overlap rootLocation location) ↔
    Straight tree maxLinks cwd path) ∧
    (".." ∉ path.segments → (Straight tree maxLinks cwd path ↔
      (reach tree maxLinks cwd path).isSome = true → ¬ Dangles tree maxLinks (resolve tree cwd path))) := by
  refine ⟨?_, straight_iff_of_no_up⟩
  rw [straight_iff]
  constructor
  · intro h location hreach
    by_contra hstraight
    obtain ⟨habove, hfile⟩ := not_or.mp hstraight
    obtain ⟨root, hroot, hoverlap, hapart⟩ := exists_overlap (settled_of_reach hreach) habove hfile
    have hroots : ∀ r, some r ∈ PathBoundary.roots ⟨path, some ⟨true, root⟩, [], "path", "the root"⟩ → r = ⟨true, root⟩ := by
      intro r hr
      exact Option.some.inj (List.mem_singleton.mp hr)
    refine h ⟨path, some ⟨true, root⟩, [], "path", "the root"⟩ rfl ?_ ?_ location hreach ⟨true, root⟩
      List.mem_cons_self root (reach_settled hroot) hoverlap
    · intro r hr
      rw [hroots r hr]
      exact resolves_settled hroot
    · rw [assert_ok]
      intro r hr _
      rw [hroots r hr, resolvePath_settled hroot, resolvePath_settled hroot]
      exact hapart
  · rintro hstraight boundary rfl hroots haccept location hreach root hroot rootLocation hrootReach hoverlap
    obtain ⟨hdangles, w, hwalk, rfl⟩ := hroots root hroot rootLocation hrootReach
    have hempty : root.isEmpty = false := by
      unfold reach at hrootReach
      split at hrootReach
      · cases hrootReach
      · rename_i hne
        simpa using hne
    have hapart := assert_ok.mp haccept root hroot hempty
    rw [resolvePath_of_walk hdangles hwalk, resolvePath_settled (settled_of_walk hwalk .root)] at hapart
    apply hapart
    rcases hstraight location hreach with habove | ⟨hfile, hbelow⟩
    · rcases hoverlap with hbegin | hbegin
      · exact List.prefix_or_prefix_of_prefix hbegin habove
      · exact .inr (habove.trans hbegin)
    · rcases hoverlap with hbegin | ⟨tail, htail⟩
      · exact .inl (hbegin.trans hbelow)
      · -- a root below the file that the path reaches would be that file
        cases tail with
        | nil =>
          rw [List.append_nil] at htail
          exact .inl (htail ▸ hbelow)
        | cons name more =>
          have hsettled := settled_of_walk hwalk .root
          rw [← htail] at hsettled
          exact absurd hfile hsettled.not_file_of_append

/-! ## A link into the protected checkout -/

/-- `/protected` with nothing in it, and `/work/link`, which leads to `/protected/new`. -/
def linkedTree : FileTree where
  entry
    | [] => some .dir
    | [name] => if name = "work" ∨ name = "protected" then some .dir else none
    | [above, name] => if above = "work" ∧ name = "link" then some (.link true ["protected", "new"]) else none
    | _ => none
  root := rfl
  parent := by
    intro here name h
    match here with
    | [] => rfl
    | [above] =>
      by_cases habove : above = "work" ∧ name = "link"
      · exact if_pos (.inl habove.1)
      · exact absurd (if_neg habove) h
    | _ :: _ :: [] => exact absurd rfl h
    | _ :: _ :: _ :: _ => exact absurd rfl h
  spare := by
    intro here name
    have hfresh : ∃ other, IsName other ∧ other ≠ name ∧ other ≠ "work" ∧ other ≠ "protected" ∧ other ≠ "link" := by
      by_cases hname : name = "a"
      · exact ⟨"b", by decide, by rw [hname]; decide, by decide⟩
      · exact ⟨"a", by decide, Ne.symm hname, by decide⟩
    obtain ⟨other, hother, hne, hwork, hprotected, hlink⟩ := hfresh
    refine ⟨other, hother, hne, ?_⟩
    match here with
    | [] => exact if_neg (not_or.mpr ⟨hwork, hprotected⟩)
    | [_] => exact if_neg fun h => hlink h.2
    | _ :: _ :: [] => rfl
    | _ :: _ :: _ :: _ => rfl

def rootDirectory : WorkingDirectory linkedTree := ⟨[], .root⟩

/-- The link is accepted, though what is made through it is made in the protected checkout. -/
theorem linked_path_accepted :
    assertPathOutsideProtectedRoot linkedTree 40 rootDirectory
      ⟨⟨true, ["work", "link"]⟩, some ⟨true, ["protected"]⟩, [], "workRoot", "the protected checkout"⟩ = .ok () ∧
    reach linkedTree 40 rootDirectory ⟨true, ["work", "link"]⟩ = some ["protected", "new"] ∧
    reach linkedTree 40 rootDirectory ⟨true, ["protected"]⟩ = some ["protected"] ∧
    Overlap ["protected"] ["protected", "new"] := by
  refine ⟨?_, ?_, ?_, .inl ⟨["new"], rfl⟩⟩
  · decide +kernel
  · decide +kernel
  · decide +kernel

end NeonDiff.PathSafety
