import Mathlib.Data.String.Basic
import ObjectStore.Proofs.World.PreloadPlan

/-!
This module proves that a preload tree is a set of paths. To insert a path adds its prefixes to the ways
down the tree and nothing else, and a well-formed tree has no more to it than the ways down. They are
listed in the order of the names along them, so that a way comes before those that go on from it.
-/

namespace ObjectStore

namespace Text

/-- The path along some names. -/
def dotted (names : List String) : String :=
  ".".intercalate names

theorem splitAt_eq_splitOn (c : Char) (cs : List Char) : splitAt c cs = cs.splitOn c := by
  induction cs with
  | nil => rw [splitAt, List.splitOn_nil]
  | cons d cs ih =>
    rw [splitAt, ih, List.splitOn, List.splitOn, List.splitOnP_cons_eq_if_modifyHead]
    simp only [beq_iff_eq]
    split
    . rfl
    . have hne := List.splitOn_ne_nil c cs
      unfold List.splitOn at hne
      split
      . contradiction
      . next heq => rw [heq, List.modifyHead_cons]

theorem not_mem_of_mem_splitAt {c : Char} {cs part : List Char} (h : part ∈ splitAt c cs)
    : c ∉ part := by
  induction cs generalizing part with
  | nil =>
    rw [List.mem_singleton.1 h]
    exact List.not_mem_nil
  | cons d cs ih =>
    unfold splitAt at h
    split at h
    . rcases List.mem_cons.1 h with rfl | h
      . exact List.not_mem_nil
      . exact ih h
    . next hne =>
      split at h
      . next heq => exact absurd heq (splitAt_ne_nil c cs)
      . next first parts heq =>
        rw [heq] at ih
        rcases List.mem_cons.1 h with rfl | h
        . rw [List.mem_cons, not_or]
          exact ⟨Ne.symm hne, ih List.mem_cons_self⟩
        . exact ih (List.mem_cons_of_mem _ h)

theorem not_mem_of_mem_segments {path name : String} (h : name ∈ segments path)
    : '.' ∉ name.toList := by
  obtain ⟨part, hpart, rfl⟩ := List.mem_map.1 h
  rw [String.toList_ofList]
  exact not_mem_of_mem_splitAt hpart

theorem segments_dotted {names : List String} (hne : names ≠ [])
    (hnames : ∀ name ∈ names, '.' ∉ name.toList) : segments (dotted names) = names := by
  have hsplit : (".".toList.intercalate (names.map String.toList)).splitOn '.'
      = names.map String.toList := by
    apply List.splitOn_intercalate
    . intro part hpart
      obtain ⟨name, hname, rfl⟩ := List.mem_map.1 hpart
      exact hnames name hname
    . simpa using hne
  unfold segments dotted
  rw [splitAt_eq_splitOn, String.toList_intercalate, hsplit, List.map_map]
  simp [Function.comp_def]

theorem dotted_cons {name : String} {names : List String} (h : names ≠ [])
    : dotted (name :: names) = name ++ "." ++ dotted names :=
  String.intercalate_cons_of_ne_nil h

end Text

/-- In a list in a strict order the smaller one of two members stands before the other one. -/
theorem pair_sublist {α : Type} [LT α] [Std.Asymm (α := α) (· < ·)] [Std.Irrefl (α := α) (· < ·)]
    {xs : List α} (h : xs.Pairwise (· < ·)) {x y : α} (hx : x ∈ xs) (hy : y ∈ xs) (hlt : x < y)
    : [x, y].Sublist xs := by
  obtain ⟨front, back, rfl⟩ := List.append_of_mem hx
  obtain ⟨_, _, hacross⟩ := List.pairwise_append.1 h
  rcases List.mem_append.1 hy with hy | hy
  . exact absurd hlt (Std.Asymm.asymm _ _ (hacross y hy x List.mem_cons_self))
  . rcases List.mem_cons.1 hy with rfl | hy
    . exact absurd hlt (Std.Irrefl.irrefl _)
    . have hback : [x, y].Sublist (x :: back) := (List.singleton_sublist.2 hy).cons_cons x
      exact hback.trans (List.sublist_append_right front _)

namespace PreloadTree

open Text

/-- The relationships that a path follows. -/
def pathNames (path : String) : List String :=
  (segments path).filter (· ≠ "")

def ofPaths (inserted : List String) : PreloadTree :=
  inserted.foldl insertPath empty

mutual

/-- The ways down the tree, in the order in which the paths are listed. -/
def ways : PreloadTree → List (List String)
  | node children => childWays children

def childWays : List (String × PreloadTree) → List (List String)
  | [] => []
  | (name, below) :: rest => [name] :: below.ways.map (name :: ·) ++ childWays rest

end

variable {tree tree' : PreloadTree} {children : List (String × PreloadTree)} {name : String}
  {path way : List String}

/-! What a tree has to it are the ways down. -/

theorem hasPath_cons
    : (node children).HasPath (name :: path) ↔ ∃ below, (name, below) ∈ children ∧ below.HasPath path := by
  constructor
  . intro h
    cases h with
    | cons hchild hrest => exact ⟨_, hchild, hrest⟩
  . rintro ⟨below, hchild, hrest⟩
    exact .cons hchild hrest

theorem hasPath_cons_iff_lookup (h : Ascending children)
    : (node children).HasPath (name :: path)
        ↔
      ∃ below, children.lookup name = some below ∧ below.HasPath path := by
  simp only [hasPath_cons, h.mem_iff_lookup]

theorem hasPath_empty : empty.HasPath path ↔ path = [] := by
  constructor
  . intro h
    cases h with
    | nil => rfl
    | cons hchild _ => cases hchild
  . rintro rfl
    exact .nil _

/-- Trees with the same ways down are the same. -/
theorem WellFormed.ext (h : tree.WellFormed) (h' : tree'.WellFormed)
    (hpaths : ∀ path, tree.HasPath path ↔ tree'.HasPath path) : tree = tree' := by
  induction h generalizing tree' with
  | @node children hascending hbelow ih =>
    obtain ⟨hascending', hbelow'⟩ := h'
    next children' =>
    have hrest : ∀ name path,
        (∃ below, children.lookup name = some below ∧ below.HasPath path)
          ↔
        ∃ below, children'.lookup name = some below ∧ below.HasPath path := by
      intro name path
      rw [← hasPath_cons_iff_lookup hascending, hpaths, hasPath_cons_iff_lookup hascending']
    have hlookup : ∀ name, children.lookup name = children'.lookup name := by
      intro name
      have hhere := hrest name []
      cases hfirst : children.lookup name with
      | none =>
        cases hsecond : children'.lookup name with
        | none => rfl
        | some below' => simp [hfirst, hsecond, HasPath.nil] at hhere
      | some below =>
        cases hsecond : children'.lookup name with
        | none => simp [hfirst, hsecond, HasPath.nil] at hhere
        | some below' =>
          have hmem := (hascending.mem_iff_lookup name below).2 hfirst
          have hmem' := (hascending'.mem_iff_lookup name below').2 hsecond
          have hsame : below = below' := by
            apply ih name below hmem (hbelow' name below' hmem')
            intro path
            simpa [hfirst, hsecond] using hrest name path
          rw [hsame]
    have hkeyed : (⟨children, hascending⟩ : Keyed PreloadTree) = ⟨children', hascending'⟩ :=
      Keyed.ext_get? hlookup
    rw [Keyed.mk.inj hkeyed]

theorem hasPath_insertSegments (h : tree.WellFormed) (names : List String)
    : (insertSegments names tree).HasPath path ↔ tree.HasPath path ∨ path <+: names := by
  induction names generalizing tree path with
  | nil =>
    rw [insertSegments, List.prefix_nil, or_iff_left_of_imp]
    rintro rfl
    exact .nil tree
  | cons s ss ih =>
    obtain ⟨hascending, hbelow⟩ := h
    next children =>
    rw [insertSegments]
    cases path with
    | nil => exact iff_of_true (.nil _) (.inl (.nil _))
    | cons name path =>
      rw [hasPath_cons_iff_lookup hascending.insertEntry, hasPath_cons_iff_lookup hascending,
        Keyed.lookup_insertEntry, List.cons_prefix_cons]
      by_cases hname : name = s
      . subst hname
        simp only [if_true, Option.some.injEq, exists_eq_left', true_and]
        cases hlookup : children.lookup name with
        | none =>
          rw [Option.getD_none, ih wellFormed_empty, hasPath_empty]
          simp only [reduceCtorEq, false_and, exists_false, false_or, or_iff_right_iff_imp]
          rintro rfl
          exact List.nil_prefix
        | some below =>
          rw [Option.getD_some, ih (hbelow name below ((hascending.mem_iff_lookup ..).2 hlookup))]
          simp
      . simp [hname]

theorem wellFormed_foldl_insertPath (h : tree.WellFormed) (inserted : List String)
    : (inserted.foldl insertPath tree).WellFormed := by
  induction inserted generalizing tree with
  | nil => exact h
  | cons p rest ih => exact ih (h.insertPath p)

theorem hasPath_foldl_insertPath (h : tree.WellFormed) (inserted : List String)
    : (inserted.foldl insertPath tree).HasPath path
        ↔
      tree.HasPath path ∨ ∃ p ∈ inserted, path <+: pathNames p := by
  induction inserted generalizing tree with
  | nil => simp
  | cons p rest ih =>
    have hfirst : (tree.insertPath p).HasPath path ↔ tree.HasPath path ∨ path <+: pathNames p :=
      hasPath_insertSegments h (pathNames p)
    rw [List.foldl_cons, ih (h.insertPath p), hfirst, or_assoc, List.exists_mem_cons_iff]

theorem wellFormed_ofPaths (inserted : List String) : (ofPaths inserted).WellFormed :=
  wellFormed_foldl_insertPath wellFormed_empty inserted

theorem hasPath_ofPaths {inserted : List String}
    : (ofPaths inserted).HasPath path ↔ path = [] ∨ ∃ p ∈ inserted, path <+: pathNames p := by
  unfold ofPaths
  rw [hasPath_foldl_insertPath wellFormed_empty, hasPath_empty]

/-! How the ways down are listed. -/

mutual

theorem mem_ways {way : List String} (tree : PreloadTree)
    : way ∈ tree.ways ↔ way ≠ [] ∧ tree.HasPath way := by
  cases tree with
  | node children =>
    rw [ways, mem_childWays]
    cases way with
    | nil => simp
    | cons name rest => simp [hasPath_cons]

theorem mem_childWays {way : List String} (children : List (String × PreloadTree))
    : way ∈ childWays children
        ↔
      ∃ name below rest, (name, below) ∈ children ∧ way = name :: rest ∧ below.HasPath rest := by
  cases children with
  | nil => simp [childWays]
  | cons child others =>
    obtain ⟨key, tree⟩ := child
    have hhere : way ∈ [key] :: tree.ways.map (key :: ·)
        ↔ ∃ rest, way = key :: rest ∧ tree.HasPath rest := by
      rw [List.mem_cons, List.mem_map]
      constructor
      . rintro (rfl | ⟨rest, hrest, rfl⟩)
        . exact ⟨[], rfl, .nil tree⟩
        . exact ⟨rest, rfl, ((mem_ways tree).1 hrest).2⟩
      . rintro ⟨rest, rfl, hrest⟩
        by_cases hnil : rest = []
        . exact .inl (by rw [hnil])
        . exact .inr ⟨rest, (mem_ways tree).2 ⟨hnil, hrest⟩, rfl⟩
    rw [childWays, List.mem_append, hhere, mem_childWays others]
    constructor
    . rintro (⟨rest, rfl, hrest⟩ | ⟨name, below, rest, hmem, rfl, hrest⟩)
      . exact ⟨key, tree, rest, List.mem_cons_self, rfl, hrest⟩
      . exact ⟨name, below, rest, List.mem_cons_of_mem _ hmem, rfl, hrest⟩
    . rintro ⟨name, below, rest, hmem, rfl, hrest⟩
      rcases List.mem_cons.1 hmem with heq | hmem
      . cases heq
        exact .inl ⟨rest, rfl, hrest⟩
      . exact .inr ⟨name, below, rest, hmem, rfl, hrest⟩

end

mutual

theorem paths_eq_map_dotted (tree : PreloadTree) : tree.paths = tree.ways.map dotted := by
  cases tree with
  | node children =>
    rw [paths, ways]
    exact childPaths_eq_map_dotted children

theorem childPaths_eq_map_dotted (children : List (String × PreloadTree))
    : childPaths children = (childWays children).map dotted := by
  cases children with
  | nil => rfl
  | cons child rest =>
    obtain ⟨name, below⟩ := child
    have hbelow : below.ways.map (fun way => name ++ "." ++ dotted way)
        = below.ways.map (fun way => dotted (name :: way)) := by
      apply List.map_congr_left
      intro way hway
      rw [dotted_cons ((mem_ways below).1 hway).1]
    rw [childPaths, childWays, paths_eq_map_dotted below, childPaths_eq_map_dotted rest,
      List.map_append, List.map_cons, List.map_map, List.map_map]
    change name :: below.ways.map (fun way => name ++ "." ++ dotted way) ++ _ = _
    rw [hbelow]
    rfl

end

theorem childWays_pairwise (h : Ascending children)
    (hbelow : ∀ name below, (name, below) ∈ children → below.ways.Pairwise (· < ·))
    : (childWays children).Pairwise (· < ·) := by
  induction children with
  | nil =>
    rw [childWays]
    exact .nil
  | cons child rest ih =>
    obtain ⟨name, below⟩ := child
    obtain ⟨hfirst, hrest⟩ := List.pairwise_cons.1 h
    have hhere : (below.ways.map (name :: ·)).Pairwise (· < ·) := by
      rw [List.pairwise_map]
      apply (hbelow name below List.mem_cons_self).imp
      intro way way' hlt
      exact List.cons_lt_cons_iff.2 (.inr ⟨rfl, hlt⟩)
    have hshort : ∀ way ∈ below.ways.map (name :: ·), [name] < way := by
      intro way hway
      obtain ⟨rest, hrest, rfl⟩ := List.mem_map.1 hway
      cases rest with
      | nil => exact absurd rfl ((mem_ways below).1 hrest).1
      | cons => exact List.cons_lt_cons_iff.2 (.inr ⟨rfl, List.nil_lt_cons ..⟩)
    rw [childWays, List.pairwise_append]
    refine ⟨List.pairwise_cons.2 ⟨hshort, hhere⟩,
      ih hrest fun name below hmem => hbelow name below (List.mem_cons_of_mem _ hmem), ?_⟩
    intro way hway way' hway'
    obtain ⟨name', below', rest', hmem, rfl, _⟩ := (mem_childWays rest).1 hway'
    have hlt : name < name' := hfirst (name', below') hmem
    rcases List.mem_cons.1 hway with rfl | hway
    . exact List.cons_lt_cons_iff.2 (.inl hlt)
    . obtain ⟨_, _, rfl⟩ := List.mem_map.1 hway
      exact List.cons_lt_cons_iff.2 (.inl hlt)

/-- The ways down stand in the order of the names along them. -/
theorem WellFormed.ways_pairwise (h : tree.WellFormed) : tree.ways.Pairwise (· < ·) := by
  induction h with
  | node hascending _ ih =>
    rw [ways]
    exact childWays_pairwise hascending ih

/-- A list of paths contains the prefixes of others and nothing else, each once. A path stands before
the paths that go on from it, and paths that go on from one place are in the order of their names. -/
structure ListsPrefixes (listed inserted : List String) : Prop where
  mem_iff : ∀ path, path ∈ listed
    ↔
    ∃ p ∈ inserted, ∃ front, front ≠ [] ∧ front <+: pathNames p ∧ path = dotted front
  once : listed.Nodup
  parent_first : ∀ path ∈ listed, ∀ front name, front ≠ [] → segments path = front ++ [name]
    → [dotted front, path].Sublist listed
  siblings_ascending : ∀ path ∈ listed, ∀ path' ∈ listed, ∀ front name name',
    segments path = front ++ [name] → segments path' = front ++ [name'] → name < name'
      → [path, path'].Sublist listed

/-- Along the ways down there are names without dots. -/
theorem segments_dotted_of_mem_ways {inserted : List String} (h : way ∈ (ofPaths inserted).ways)
    : segments (dotted way) = way := by
  obtain ⟨hne, hpath⟩ := (mem_ways _).1 h
  obtain rfl | ⟨p, _, hfront⟩ := hasPath_ofPaths.1 hpath
  . exact absurd rfl hne
  . apply segments_dotted hne
    intro name hname
    apply not_mem_of_mem_segments
    exact (List.mem_filter.1 (hfront.mem hname)).1

theorem mem_ways_ofPaths {inserted : List String}
    : way ∈ (ofPaths inserted).ways ↔ way ≠ [] ∧ ∃ p ∈ inserted, way <+: pathNames p := by
  rw [mem_ways, hasPath_ofPaths]
  constructor
  . rintro ⟨hne, rfl | h⟩
    . exact absurd rfl hne
    . exact ⟨hne, h⟩
  . rintro ⟨hne, h⟩
    exact ⟨hne, .inr h⟩

theorem listsPrefixes_ofPaths (inserted : List String)
    : ListsPrefixes (ofPaths inserted).paths inserted := by
  have hpairwise := (wellFormed_ofPaths inserted).ways_pairwise
  have hsegments : ∀ path ∈ (ofPaths inserted).ways.map dotted,
      segments path ∈ (ofPaths inserted).ways ∧ dotted (segments path) = path := by
    intro path hpath
    obtain ⟨way, hway, rfl⟩ := List.mem_map.1 hpath
    rw [segments_dotted_of_mem_ways hway]
    exact ⟨hway, rfl⟩
  rw [paths_eq_map_dotted]
  constructor
  . intro path
    rw [List.mem_map]
    simp only [mem_ways_ofPaths]
    constructor
    . rintro ⟨way, ⟨hne, p, hp, hfront⟩, rfl⟩
      exact ⟨p, hp, way, hne, hfront, rfl⟩
    . rintro ⟨p, hp, front, hne, hfront, rfl⟩
      exact ⟨front, ⟨hne, p, hp, hfront⟩, rfl⟩
  . rw [List.nodup_iff_pairwise_ne, List.pairwise_map]
    apply hpairwise.imp_of_mem
    intro way way' hway hway' hlt heq
    have hsame := congrArg segments heq
    rw [segments_dotted_of_mem_ways hway, segments_dotted_of_mem_ways hway'] at hsame
    exact List.lt_irrefl way' (hsame ▸ hlt)
  . intro path hpath front name hne hfront
    obtain ⟨hway, hdotted⟩ := hsegments path hpath
    rw [hfront] at hway hdotted
    obtain ⟨_, p, hp, hbefore⟩ := mem_ways_ofPaths.1 hway
    have hparent : front ∈ (ofPaths inserted).ways :=
      mem_ways_ofPaths.2 ⟨hne, p, hp, (List.prefix_append front [name]).trans hbefore⟩
    have hlt : front ++ [] < front ++ [name] := List.append_left_lt (List.nil_lt_cons ..)
    rw [List.append_nil] at hlt
    have hpair := (pair_sublist hpairwise hparent hway hlt).map dotted
    rwa [List.map_cons, List.map_singleton, hdotted] at hpair
  . intro path hpath path' hpath' front name name' hname hname' hlt
    obtain ⟨hway, hdotted⟩ := hsegments path hpath
    obtain ⟨hway', hdotted'⟩ := hsegments path' hpath'
    have hbefore : segments path < segments path' := by
      rw [hname, hname']
      exact List.append_left_lt (List.cons_lt_cons_iff.2 (.inl hlt))
    have hpair := (pair_sublist hpairwise hway hway' hbefore).map dotted
    rwa [List.map_cons, List.map_singleton, hdotted, hdotted'] at hpair

/-- A preload tree is the set of the prefixes of the paths that were inserted, in whatever order and
however often. -/
theorem paths_ofPaths (inserted : List String)
    : ListsPrefixes (ofPaths inserted).paths inserted
        ∧
      ∀ inserted', (∀ path, path ∈ inserted' ↔ path ∈ inserted) → ofPaths inserted' = ofPaths inserted := by
  refine ⟨listsPrefixes_ofPaths inserted, ?_⟩
  intro inserted' hsame
  apply (wellFormed_ofPaths inserted').ext (wellFormed_ofPaths inserted)
  intro path
  simp only [hasPath_ofPaths, hsame]

/-- Paths in another order, one of them twice and one with an empty segment. -/
theorem paths_ofPaths_of_rooms
    : (ofPaths ["room.floor", "owner", "room..building", "room"]).paths
          = ["owner", "room", "room.building", "room.floor"]
        ∧ ListsPrefixes ["owner", "room", "room.building", "room.floor"]
          ["room.floor", "owner", "room..building", "room"]
        ∧ ofPaths ["room", "room..building", "owner", "room.floor", "owner"]
          = ofPaths ["room.floor", "owner", "room..building", "room"] := by
  have hpaths : (ofPaths ["room.floor", "owner", "room..building", "room"]).paths
      = ["owner", "room", "room.building", "room.floor"] := by
    decide +kernel
  obtain ⟨hlists, hsame⟩ := paths_ofPaths ["room.floor", "owner", "room..building", "room"]
  refine ⟨hpaths, hpaths ▸ hlists, hsame _ ?_⟩
  intro path
  simp only [List.mem_cons, List.not_mem_nil]
  grind

end PreloadTree

end ObjectStore
