/-
File trees with symbolic links, as a process sees them, and what paths lead
to in them.

# Places and paths

A place is where something lies: the names of the directories above it and
its own, none of them a link. A path is a text; it is resolved name by name
(`resolve`): a link is replaced by its target, in front of the names that
are left, up to a limit of links. One more name is looked up where the path
leads (`resolve_append`), and what is added to a tree changes nothing of
where paths lead (`resolve_mono`).

# Making directories

`makePath` makes the directories of a path that are missing. It ends where
the path leads, or would lead (`destination`): behind the part that is
there come the names that are missing. What is left is the tree with all
the directories on the way there (`filled`, `makePath_ok`).

# Links in the last place

A writer that keeps links (`saveFile`) writes to what the links stand for
(`saveTarget`): they are followed as texts, a relative target from the clean
path of the directory that the link lies in.
-/
import AowisMap.Lib.Path
import Mathlib.Data.List.Induction
import Mathlib.Data.List.Infix
import Mathlib.Logic.Function.Basic

namespace AowisMap.Lib

abbrev Name := List Char

/-- The names from the root down. -/
abbrev Place := List Name

/-- What lies in a place. -/
inductive Node
  | dir
  | file (content : List Char)
  | link (target : List Char)
deriving DecidableEq

/-- What lies in every place, for a process with a current directory that
may follow so many links in one path: the root is a directory, and so is
whatever something lies in. -/
structure FileTree where
  node : Place → Option Node
  current : Place
  limit : Nat
  root : node [] = some .dir
  parent : ∀ place name, node (place ++ [name]) ≠ none →
    node place = some .dir
  named : ∀ place name, node (place ++ [name]) ≠ none → Path.Plain name
  current_dir : node current = some .dir

namespace FileTree

-- ================================================================ trees

/-- A tree with a node in a directory, in place of anything but a
directory. -/
def put (tree : FileTree) (dir : Place) (name : Name) (node : Node)
    (hdir : tree.node dir = some .dir)
    (hold : tree.node (dir ++ [name]) ≠ some .dir)
    (hname : Path.Plain name) : FileTree where
  node := Function.update tree.node (dir ++ [name]) (some node)
  current := tree.current
  limit := tree.limit
  root := by
    rw [Function.update_of_ne (by simp)]
    exact tree.root
  parent place other h := by
    by_cases hsame : place ++ [other] = dir ++ [name]
    · have hplace : place = dir := (List.append_inj' hsame rfl).1
      rw [hplace, Function.update_of_ne (by simp)]
      exact hdir
    · rw [Function.update_of_ne hsame] at h
      have hparent := tree.parent place other h
      have hother : place ≠ dir ++ [name] := by
        rintro rfl
        exact hold hparent
      rw [Function.update_of_ne hother]
      exact hparent
  named place other h := by
    by_cases hsame : place ++ [other] = dir ++ [name]
    · have hother := (List.append_inj' hsame rfl).2
      rw [(List.cons.inj hother).1]
      exact hname
    · rw [Function.update_of_ne hsame] at h
      exact tree.named place other h
  current_dir := by
    have hother : tree.current ≠ dir ++ [name] := by
      intro hcurrent
      exact hold (hcurrent ▸ tree.current_dir)
    rw [Function.update_of_ne hother]
    exact tree.current_dir

/-- A tree with all the directories on the way to a place. -/
def filled (tree : FileTree) (dest : Place) : FileTree where
  node place :=
    if place <+: dest ∧ ∀ name ∈ place, Path.Plain name then some .dir
    else tree.node place
  current := tree.current
  limit := tree.limit
  root := by simp
  parent place name h := by
    split at h
    · rename_i hway
      have hplace : place <+: dest ∧ ∀ name ∈ place, Path.Plain name :=
        ⟨(List.prefix_append place [name]).trans hway.1, fun other hother =>
          hway.2 other (List.mem_append_left _ hother)⟩
      rw [if_pos hplace]
    · split
      · rfl
      · exact tree.parent place name h
  named place name h := by
    split at h
    · rename_i hway
      exact hway.2 name (by simp)
    · exact tree.named place name h
  current_dir := by
    split
    · rfl
    · exact tree.current_dir

theorem ext_node {tree tree' : FileTree} (hnode : tree.node = tree'.node)
    (hcurrent : tree.current = tree'.current)
    (hlimit : tree.limit = tree'.limit) : tree = tree' := by
  cases tree
  cases tree'
  cases hnode
  cases hcurrent
  cases hlimit
  rfl

/-- Nothing lies in a place where nothing is. -/
theorem node_below {tree : FileTree} {place : Place}
    (h : tree.node place = none) (more : List Name) :
    tree.node (place ++ more) = none := by
  induction more using List.reverseRecOn with
  | nil => rwa [List.append_nil]
  | append_singleton more name ih =>
      by_contra hsome
      rw [← List.append_assoc] at hsome
      have hdir := tree.parent _ name hsome
      rw [ih] at hdir
      cases hdir

/-- The places on the way to a directory are directories. -/
theorem node_above {tree : FileTree} {place : Place}
    (h : tree.node place = some .dir) {above : Place}
    (hway : above <+: place) : tree.node above = some .dir := by
  obtain ⟨more, rfl⟩ := hway
  induction more using List.reverseRecOn with
  | nil => rwa [List.append_nil] at h
  | append_singleton more name ih =>
      apply ih
      apply tree.parent _ name
      rw [List.append_assoc, h]
      exact Option.some_ne_none _

/-- The names of a place where something is are plain. -/
theorem plain_of_node {tree : FileTree} {place : Place}
    (h : tree.node place ≠ none) : ∀ name ∈ place, Path.Plain name := by
  induction place using List.reverseRecOn with
  | nil => exact fun _ hname => by cases hname
  | append_singleton place last ih =>
      intro name hname
      rcases List.mem_append.1 hname with hname | hname
      · apply ih _ name hname
        rw [tree.parent place last h]
        exact Option.some_ne_none _
      · rw [List.mem_singleton.1 hname]
        exact tree.named place last h

/-- The tree has all that another one has. -/
structure Extends (tree' tree : FileTree) : Prop where
  node : ∀ place node, tree.node place = some node →
    tree'.node place = some node
  current : tree'.current = tree.current
  limit : tree'.limit = tree.limit

theorem Extends.refl (tree : FileTree) : tree.Extends tree :=
  ⟨fun _ _ h => h, rfl, rfl⟩

theorem Extends.trans {tree₁ tree₂ tree₃ : FileTree}
    (h : tree₃.Extends tree₂) (h' : tree₂.Extends tree₁) :
    tree₃.Extends tree₁ :=
  ⟨fun place node hnode => h.node place node (h'.node place node hnode),
    h.current.trans h'.current, h.limit.trans h'.limit⟩

theorem put_extends {tree : FileTree} {dir : Place} {name : Name}
    {node : Node} (hdir : tree.node dir = some .dir)
    (hold : tree.node (dir ++ [name]) ≠ some .dir)
    (hname : Path.Plain name) (hfree : tree.node (dir ++ [name]) = none) :
    (tree.put dir name node hdir hold hname).Extends tree := by
  refine ⟨fun place other hother => ?_, rfl, rfl⟩
  have hplace : place ≠ dir ++ [name] := by
    rintro rfl
    rw [hfree] at hother
    cases hother
  exact (Function.update_of_ne hplace _ _).trans hother

-- =========================================================== resolution

variable (tree : FileTree)

/-- Where names lead from a directory; links are left to `follow`. -/
def walk (follow : Place → List Name → Option Place) :
    Place → List Name → Option Place
  | place, [] => some place
  | place, name :: rest =>
      if name = [] ∨ name = ['.'] then walk follow place rest
      else if name = ['.', '.'] then walk follow place.dropLast rest
      else
        match tree.node (place ++ [name]) with
        | none => none
        | some .dir => walk follow (place ++ [name]) rest
        | some (.file _) => if rest = [] then some (place ++ [name]) else none
        | some (.link target) =>
            follow (if Path.isAbsolute target then [] else place)
              (Path.components target ++ rest)

/-- Where names lead from a directory through at most so many links, if
something is there. -/
def resolve : Nat → Place → List Name → Option Place
  | 0 => tree.walk fun _ _ => none
  | limit + 1 => tree.walk (resolve limit)

variable {tree}

/-- What every number of links inherits from the smaller ones. -/
theorem resolve_induct {P : (Place → List Name → Option Place) → Prop}
    (hnone : P fun _ _ => none)
    (hwalk : ∀ follow, P follow → P (tree.walk follow)) (limit : Nat) :
    P (tree.resolve limit) := by
  induction limit with
  | zero => exact hwalk _ hnone
  | succ limit ih => exact hwalk _ ih

/-- One more name is looked up where a path leads. -/
theorem resolve_append {limit : Nat} {place dir : Place}
    {names : List Name} (h : tree.resolve limit place names = some dir)
    (hdir : tree.node dir = some .dir) {name : Name}
    (hname : Path.Plain name) :
    (tree.node (dir ++ [name]) = none →
      tree.resolve limit place (names ++ [name]) = none) ∧
    (tree.node (dir ++ [name]) = some .dir →
      tree.resolve limit place (names ++ [name]) = some (dir ++ [name])) := by
  have hall := @resolve_induct tree
    (fun follow => ∀ names place, follow place names = some dir →
      (tree.node (dir ++ [name]) = none →
        follow place (names ++ [name]) = none) ∧
      (tree.node (dir ++ [name]) = some .dir →
        follow place (names ++ [name]) = some (dir ++ [name])))
    (fun names place h => by cases h)
    (fun follow hfollow => by
      intro names
      induction names with
      | nil =>
          intro place h
          cases h
          rw [List.nil_append]
          unfold walk
          rw [if_neg (not_or.2 ⟨hname.ne_nil, hname.ne_dot⟩),
            if_neg hname.ne_dots]
          refine ⟨fun hnode => ?_, fun hnode => ?_⟩
          · rw [hnode]
          · rw [hnode]
            rfl
      | cons first rest ih =>
          intro place h
          rw [List.cons_append]
          unfold walk at h ⊢
          split
          · rename_i hdot
            rw [if_pos hdot] at h
            exact ih _ h
          · rename_i hdot
            rw [if_neg hdot] at h
            split
            · rename_i hdots
              rw [if_pos hdots] at h
              exact ih _ h
            · rename_i hdots
              rw [if_neg hdots] at h
              cases hnode : tree.node (place ++ [first]) with
              | none =>
                  rw [hnode] at h
                  cases h
              | some node =>
                  rw [hnode] at h
                  cases node with
                  | dir => exact ih _ h
                  | file content =>
                      simp only at h
                      split at h
                      · cases h
                        rw [hnode] at hdir
                        cases hdir
                      · cases h
                  | link target =>
                      simp only at h ⊢
                      rw [← List.append_assoc]
                      exact hfollow _ _ h)
    limit
  exact hall names place h

/-- Something is where names lead from a directory. -/
theorem resolve_node {limit : Nat} {place result : Place}
    {names : List Name} (hplace : tree.node place = some .dir)
    (h : tree.resolve limit place names = some result) :
    tree.node result ≠ none := by
  have hall := @resolve_induct tree
    (fun follow => ∀ names place, tree.node place = some .dir →
      follow place names = some result → tree.node result ≠ none)
    (fun names place _ h => by cases h)
    (fun follow hfollow => by
      intro names
      induction names with
      | nil =>
          intro place hplace h
          cases h
          rw [hplace]
          exact Option.some_ne_none _
      | cons name rest ih =>
          intro place hplace h
          unfold walk at h
          split at h
          · exact ih _ hplace h
          · split at h
            · exact ih _ (node_above hplace (List.dropLast_prefix place)) h
            · cases hnode : tree.node (place ++ [name]) with
              | none =>
                  rw [hnode] at h
                  cases h
              | some node =>
                  rw [hnode] at h
                  cases node with
                  | dir => exact ih _ hnode h
                  | file content =>
                      simp only at h
                      split at h
                      · cases h
                        rw [hnode]
                        exact Option.some_ne_none _
                      · cases h
                  | link target =>
                      refine hfollow _ _ ?_ h
                      split
                      · exact tree.root
                      · exact hplace)
    limit
  exact hall names place hplace h

/-- What is added to a tree leaves where paths lead. -/
theorem resolve_mono {tree' : FileTree} (hextends : tree'.Extends tree) :
    ∀ {limit : Nat} {place result : Place} {names : List Name},
      tree.resolve limit place names = some result →
      tree'.resolve limit place names = some result := by
  have hwalk {follow follow' : Place → List Name → Option Place}
      (hfollow : ∀ place names result, follow place names = some result →
        follow' place names = some result) :
      ∀ names place result, tree.walk follow place names = some result →
        tree'.walk follow' place names = some result := by
    intro names
    induction names with
    | nil => exact fun place result h => h
    | cons name rest ih =>
        intro place result h
        unfold walk at h ⊢
        split
        · rename_i hdot
          rw [if_pos hdot] at h
          exact ih _ _ h
        · rename_i hdot
          rw [if_neg hdot] at h
          split
          · rename_i hdots
            rw [if_pos hdots] at h
            exact ih _ _ h
          · rename_i hdots
            rw [if_neg hdots] at h
            cases hnode : tree.node (place ++ [name]) with
            | none =>
                rw [hnode] at h
                cases h
            | some node =>
                rw [hextends.node _ _ hnode]
                rw [hnode] at h
                cases node with
                | dir => exact ih _ _ h
                | file content => exact h
                | link target => exact hfollow _ _ _ h
  intro limit
  induction limit with
  | zero =>
      intro place result names h
      exact hwalk (fun _ _ _ hnone => by cases hnone) _ _ _ h
  | succ limit ih =>
      intro place result names h
      exact hwalk (fun _ _ _ hsome => ih hsome) _ _ _ h

-- ================================================================ paths

variable (tree)

/-- Where the names of a path start. -/
def start (path : List Char) : Place :=
  if Path.isAbsolute path then [] else tree.current

/-- What a path names in its directory. -/
def fileName (path : List Char) : Name :=
  (Path.components path).getLastD []

/-- Where the directory of a path leads. -/
def directoryOf (path : List Char) : Option Place :=
  tree.resolve tree.limit (tree.start path) (Path.components path).dropLast

/-- The place that a path names. -/
def placeOf (path : List Char) : Option Place :=
  (tree.directoryOf path).map (· ++ [fileName path])

/-- `QDir(path).canonicalPath()` of the directory of a path: a text
without links, empty when nothing is there. -/
def canonicalPath (path : List Char) : List Char :=
  match tree.directoryOf path with
  | none => []
  | some dir => Path.ofNames dir

/-- The names of `QDir::cleanPath(absoluteFilePath())`. -/
def absoluteNames (path : List Char) : List Name :=
  Path.absoluteNames tree.current path

/-- The names of `QFileInfo::absolutePath()`: all but the last one, unless
the path ends in a separator. -/
def absolutePath (path : List Char) : List Name :=
  if fileName path = [] then tree.absoluteNames path
  else (tree.absoluteNames path).dropLast

/-- Names from the root lead to a directory. -/
def isDir (place : Place) (names : List Name) : Bool :=
  (tree.resolve tree.limit place names).bind tree.node == some .dir

variable {tree}

theorem start_dir (path : List Char) :
    tree.node (tree.start path) = some .dir := by
  unfold start
  split
  · exact tree.root
  · exact tree.current_dir

/-- The names of the directory of a path are plain. -/
theorem directoryOf_plain {path : List Char} {dir : Place}
    (h : tree.directoryOf path = some dir) : ∀ name ∈ dir, Path.Plain name :=
  plain_of_node (resolve_node (start_dir path) h)

/-- The clean names of a path are plain. -/
theorem absoluteNames_plain (path : List Char) :
    ∀ name ∈ tree.absoluteNames path, Path.Plain name := by
  apply Path.absoluteNames_plain
  refine @plain_of_node tree tree.current ?_
  rw [tree.current_dir]
  exact Option.some_ne_none _

theorem absolutePath_plain (path : List Char) :
    ∀ name ∈ tree.absolutePath path, Path.Plain name := by
  intro name hname
  unfold absolutePath at hname
  split at hname
  · exact absoluteNames_plain path name hname
  · exact absoluteNames_plain path name (List.mem_of_mem_dropLast hname)

variable (tree)

-- ================================================================ links

/-- The target of the link that a path is; links on the way to it are
followed. -/
def linkAt (path : List Char) : Option (List Char) :=
  match (tree.placeOf path).bind tree.node with
  | some (.link target) => some target
  | _ => none

/-- `QFileInfo::symLinkTarget`: the clean text of the target, from the
directory of the link if it is relative. -/
def symLinkTarget (path target : List Char) : List Char :=
  Path.ofNames (Path.absoluteNames (tree.absolutePath path) target)

/-- A path that is no link, after at most so many looks. -/
def followLinks : Nat → List Char → Option (List Char)
  | 0, _ => none
  | fuel + 1, path =>
      match tree.linkAt path with
      | none => some path
      | some target => followLinks fuel (tree.symLinkTarget path target)

/-- The path that `QSaveFile` writes: links are followed with 127 looks,
and stay as they are if these are not enough. -/
def saveTarget (path : List Char) : List Char :=
  (tree.followLinks 127 path).getD path

variable {tree}

/-- What is no link is written itself. -/
theorem saveTarget_of_linkAt {path : List Char}
    (h : tree.linkAt path = none) : tree.saveTarget path = path := by
  unfold saveTarget followLinks
  rw [h]
  rfl

/-- Where the directory of a path leads stays. -/
theorem directoryOf_mono {tree' : FileTree} (hextends : tree'.Extends tree)
    {path : List Char} {dir : Place} (h : tree.directoryOf path = some dir) :
    tree'.directoryOf path = some dir := by
  unfold directoryOf start at h ⊢
  rw [hextends.limit, hextends.current]
  exact resolve_mono hextends h

-- =============================================================== writing

/-- `QSaveFile` from opening to `commit`: the tree with the file, and the
place of the file. Directories are refused. -/
def saveFile (tree : FileTree) (path content : List Char) :
    Option (FileTree × Place) :=
  if tree.isDir (tree.start path) (Path.components path) then none
  else
    match tree.directoryOf (tree.saveTarget path) with
    | none => none
    | some dir =>
        let name := fileName (tree.saveTarget path)
        if h : tree.node dir = some .dir ∧
            tree.node (dir ++ [name]) ≠ some .dir ∧ Path.Plain name then
          some (tree.put dir name (.file content) h.1 h.2.1 h.2.2,
            dir ++ [name])
        else none

/-- A file lies where the path that is written says. -/
theorem saveFile_place {content path : List Char} {saved : FileTree × Place}
    (h : tree.saveFile path content = some saved) :
    tree.placeOf (tree.saveTarget path) = some saved.2 := by
  unfold saveFile at h
  split at h
  · cases h
  · split at h
    · cases h
    · rename_i dir hdir
      simp only at h
      split at h
      · cases h
        rw [placeOf, hdir]
        rfl
      · cases h

-- ==================================================== making directories

/-- `mkdir`, with the directory that it makes: an existing directory will
do, a link to one too. -/
def makeDir (tree : FileTree) (done : List Name) (name : Name) :
    Option (FileTree × List Place) :=
  match tree.resolve tree.limit [] done with
  | none => none
  | some dir =>
      if h : tree.node dir = some .dir ∧ tree.node (dir ++ [name]) = none ∧
          Path.Plain name then
        some (tree.put dir name .dir h.1
          (fun hdir => by rw [h.2.1] at hdir; cases hdir) h.2.2,
          [dir ++ [name]])
      else if tree.isDir [] (done ++ [name]) then some (tree, [])
      else none

/-- `QDir::mkpath`: the directories that are missing, from the root on. -/
def makePath : FileTree → List Name → List Name →
    Option (FileTree × List Place)
  | tree, _, [] => some (tree, [])
  | tree, done, name :: rest =>
      match tree.makeDir done name with
      | none => none
      | some (tree', made) =>
          (makePath tree' (done ++ [name]) rest).map fun later =>
            (later.1, made ++ later.2)

/-- Where a path leads, with the names behind the part that leads
somewhere. -/
def destination (tree : FileTree) : List Name → List Name → Option Place
  | done, [] => tree.resolve tree.limit [] done
  | done, name :: rest =>
      if (tree.resolve tree.limit [] (done ++ [name])).isSome then
        destination tree (done ++ [name]) rest
      else (tree.resolve tree.limit [] done).map (· ++ name :: rest)

/-- A directory is there, or it is made where nothing was. -/
theorem makeDir_ok {tree tree' : FileTree} {done : List Name} {name : Name}
    {made : List Place} (h : tree.makeDir done name = some (tree', made)) :
    (tree' = tree ∧ made = [] ∧ ∃ dir,
      tree.resolve tree.limit [] (done ++ [name]) = some dir ∧
      tree.node dir = some .dir) ∨
    ∃ dir, tree.resolve tree.limit [] done = some dir ∧
      tree.node dir = some .dir ∧ tree.node (dir ++ [name]) = none ∧
      made = [dir ++ [name]] ∧ tree'.Extends tree ∧
      tree'.node = Function.update tree.node (dir ++ [name]) (some .dir) := by
  unfold makeDir at h
  split at h
  · cases h
  · rename_i dir hdone
    split at h
    · rename_i hfree
      cases h
      exact Or.inr ⟨dir, hdone, hfree.1, hfree.2.1, rfl,
        put_extends _ _ _ hfree.2.1, rfl⟩
    · split at h
      · rename_i hdir
        cases h
        left
        unfold isDir at hdir
        rw [beq_iff_eq, Option.bind_eq_some_iff] at hdir
        exact ⟨rfl, rfl, hdir⟩
      · cases h

/-- What making the directories of a path leaves. -/
structure Made (tree : FileTree) (done rest : List Name) (tree' : FileTree)
    (made : List Place) (dest : Place) : Prop where
  destination : tree.destination done rest = some dest
  tree_eq : tree' = tree.filled dest
  extension : tree'.Extends tree
  leads : tree'.resolve tree'.limit [] (done ++ rest) = some dest
  made_iff : ∀ place, place ∈ made ↔
    place <+: dest ∧ tree.node place = none

/-- A directory has all the directories on the way to it. -/
theorem filled_eq_self {dir : Place} (h : tree.node dir = some .dir) :
    tree.filled dir = tree := by
  refine ext_node (funext fun place => ?_) rfl rfl
  show (if _ then _ else _) = _
  split
  · rename_i hway
    exact (node_above h hway.1).symm
  · rfl

/-- A directory on the way is one of those that are filled in. -/
theorem filled_put {tree' : FileTree} {place dest : Place}
    (hnode : tree'.node = Function.update tree.node place (some .dir))
    (hextends : tree'.Extends tree) (hway : place <+: dest) :
    tree'.filled dest = tree.filled dest := by
  have hplain : ∀ name ∈ place, Path.Plain name := by
    refine @plain_of_node tree' place ?_
    rw [hnode, Function.update_self]
    exact Option.some_ne_none _
  refine ext_node (funext fun other => ?_) hextends.current hextends.limit
  show (if _ then _ else _) = (if _ then _ else _)
  split
  · rfl
  · rename_i hother
    have hne : other ≠ place := by
      rintro rfl
      exact hother ⟨hway, hplain⟩
    rw [hnode, Function.update_of_ne hne]

/-- The directories of a path are made where it leads, or would lead, and
nothing else is. -/
theorem makePath_ok :
    ∀ {rest : List Name} {tree tree' : FileTree} {done : List Name}
      {made : List Place} {dir : Place}, (∀ name ∈ rest, Path.Plain name) →
      tree.resolve tree.limit [] done = some dir →
      tree.node dir = some .dir →
      tree.makePath done rest = some (tree', made) →
      ∃ dest, Made tree done rest tree' made dest := by
  intro rest
  induction rest with
  | nil =>
      intro tree tree' done made dir _ hdone hdir h
      cases h
      refine ⟨dir, hdone, (filled_eq_self hdir).symm, Extends.refl tree, ?_,
        fun place => ?_⟩
      · rwa [List.append_nil]
      · refine ⟨fun hplace => (by cases hplace), fun ⟨hway, hfree⟩ => ?_⟩
        rw [node_above hdir hway] at hfree
        cases hfree
  | cons name rest ih =>
      intro tree tree' done made dir hplain hdone hdir h
      have hname := hplain name List.mem_cons_self
      unfold makePath at h
      split at h
      · cases h
      rename_i tree₁ made₁ hmake
      obtain ⟨⟨tree₂, made₂⟩, hlater, heq⟩ := Option.map_eq_some_iff.1 h
      cases heq
      rcases makeDir_ok hmake with ⟨rfl, rfl, dir', hdone', hdir'⟩ |
        ⟨dir', hdone', _, hfree, rfl, hextends, hnode⟩
      · -- the directory is there
        obtain ⟨dest, hmade⟩ := ih (fun other hother =>
          hplain other (List.mem_cons_of_mem _ hother)) hdone' hdir' hlater
        refine ⟨dest, ?_, hmade.tree_eq, hmade.extension, ?_, hmade.made_iff⟩
        · unfold FileTree.destination
          rw [hdone', Option.isSome_some, if_pos rfl]
          exact hmade.destination
        · have hleads := hmade.leads
          rwa [List.append_assoc, List.singleton_append] at hleads
      · -- the directory is made, and nothing lies below it
        cases hdone.symm.trans hdone'
        have hdone₁ : tree₁.resolve tree₁.limit [] (done ++ [name])
            = some (dir ++ [name]) := by
          apply (resolve_append _ _ hname).2
          · rw [hnode, Function.update_self]
          · rw [hextends.limit]
            exact resolve_mono hextends hdone
          · exact hextends.node _ _ hdir
        have hdir₁ : tree₁.node (dir ++ [name]) = some .dir := by
          rw [hnode, Function.update_self]
        obtain ⟨dest, hmade⟩ := ih (fun other hother =>
          hplain other (List.mem_cons_of_mem _ hother)) hdone₁ hdir₁ hlater
        have hmissing : tree.resolve tree.limit [] (done ++ [name]) = none :=
          (resolve_append hdone hdir hname).1 hfree
        have hdest : dest = dir ++ name :: rest := by
          have hdestination := hmade.destination
          cases rest with
          | nil =>
              unfold FileTree.destination at hdestination
              rw [hdone₁] at hdestination
              exact (Option.some.inj hdestination).symm
          | cons next rest =>
              have hnext := hplain next (by simp)
              have hbelow : tree₁.node (dir ++ [name] ++ [next]) = none := by
                rw [hnode, Function.update_of_ne (by simp)]
                exact node_below hfree [next]
              unfold FileTree.destination at hdestination
              rw [(resolve_append hdone₁ hdir₁ hnext).1 hbelow, hdone₁]
                at hdestination
              rw [← Option.some.inj hdestination]
              simp
        have hway : dir ++ [name] <+: dest := by
          rw [hdest]
          exact ⟨rest, by simp⟩
        refine ⟨dest, ?_, ?_, hmade.extension.trans hextends, ?_,
          fun place => ?_⟩
        · unfold FileTree.destination
          rw [hmissing, Option.isSome_none, if_neg (by simp), hdone, hdest]
          rfl
        · rw [hmade.tree_eq]
          exact filled_put hnode hextends hway
        · have hleads := hmade.leads
          rwa [List.append_assoc, List.singleton_append] at hleads
        · rw [List.singleton_append, List.mem_cons, hmade.made_iff, hnode]
          by_cases hplace : place = dir ++ [name]
          · rw [hplace]
            exact iff_of_true (Or.inl rfl) ⟨hway, hfree⟩
          · rw [Function.update_of_ne hplace]
            exact or_iff_right hplace

/-- The place that a path ends in has plain names. -/
theorem Made.plain {done rest : List Name} {tree' : FileTree}
    {made : List Place} {dest : Place}
    (h : Made tree done rest tree' made dest) :
    ∀ name ∈ dest, Path.Plain name :=
  plain_of_node (resolve_node tree'.root h.leads)

/-- Where something is, nothing is made. -/
theorem Made.filled_eq {done rest : List Name} {tree' : FileTree}
    {made : List Place} {dest : Place}
    (h : Made tree done rest tree' made dest)
    (hnode : tree.node dest ≠ none) : tree' = tree := by
  obtain ⟨node, hnode⟩ := Option.ne_none_iff_exists'.1 hnode
  have hdir : tree'.node dest = some .dir := by
    rw [h.tree_eq]
    exact if_pos ⟨List.prefix_rfl, h.plain⟩
  have hsame := hdir.symm.trans (h.extension.node _ _ hnode)
  rw [h.tree_eq]
  exact filled_eq_self (hnode.trans hsame.symm)

-- =========================================================== clean paths

section Clean

variable {names : List Name}

/-- The empty name in front of an absolute path leads nowhere else. -/
theorem resolve_skip (limit : Nat) (place : Place) (rest : List Name) :
    tree.resolve limit place ([] :: rest) = tree.resolve limit place rest := by
  cases limit with
  | zero =>
      unfold resolve
      rw [walk, if_pos (Or.inl rfl)]
  | succ limit =>
      unfold resolve
      rw [walk, if_pos (Or.inl rfl)]

theorem directoryOf_ofNames (h : ∀ name ∈ names, Path.Plain name)
    (hsome : names ≠ []) :
    tree.directoryOf (Path.ofNames names)
      = tree.resolve tree.limit [] names.dropLast := by
  unfold directoryOf
  rw [Path.components_ofNames h hsome,
    List.dropLast_cons_of_ne_nil hsome, resolve_skip]
  rfl

theorem absolutePath_ofNames (h : ∀ name ∈ names, Path.Plain name)
    (hsome : names ≠ []) :
    tree.absolutePath (Path.ofNames names) = names.dropLast := by
  have hlast : fileName (Path.ofNames names) ≠ [] := by
    unfold fileName
    rw [Path.components_ofNames h hsome, List.getLastD_cons,
      List.getLastD_eq_getLast?, List.getLast?_eq_some_getLast hsome]
    exact (h _ (List.getLast_mem hsome)).ne_nil
  unfold absolutePath
  rw [if_neg hlast, absoluteNames, Path.absoluteNames_ofNames h hsome]

end Clean

end FileTree

end AowisMap.Lib
