/-
Where the provider state is written: not in `/etc` if the path does not
lead there, and the check does not see all the ways in which it can.

# Inside `/etc`

What lies below the place that `/etc` leads to when the file is written
lies inside (`InsideEtc`). Where `/etc` is a link, that place is spelled
otherwise.

# What the check sees

The clean text of the path, and where its directory leads before anything
is made. So a directory that is there is not spelled `/etc` or below
(`directoryOf_outside`).

# What it does not see

A directory that is missing leads nowhere, and the check sees no text of
it: a link above it can lead into `/etc`, where the directory is then made.
A link in the last place is not followed by the check, but it is when the
file is written. And if `/etc` is itself a link, the check does not know
the place that it stands for. These are all the ways (`untouched_iff`). For
the clean paths that a configuration file yields, the first is about where
the directory would be made, and the others about the tree as it is
(`leadsIntoEtc_ofNames`).
-/
import AowisMap.Server.StateFile

namespace AowisMap.Server

open Lib
open Catalogue (Text MapProvider)

variable {tree : FileTree} {faults : Faults} {path : Text}
  {providers : List MapProvider} {saved : Saved}

/-- `etc`, in the root. -/
def etcName : Name := "etc".toList

/-- The place that `/etc` leads to. -/
def etcPlace (tree : FileTree) : Option Place :=
  tree.resolve tree.limit [] [etcName]

/-- A place below it. -/
def InsideEtc (tree : FileTree) (place : Place) : Prop :=
  ∃ etc name rest, etcPlace tree = some etc ∧ place = etc ++ name :: rest

/-- What lies in a directory lies inside `/etc` if the directory is `/etc`
or lies inside. -/
theorem insideEtc_append_iff {dir : Place} {name : Name} :
    InsideEtc tree (dir ++ [name]) ↔
      ∃ etc, etcPlace tree = some etc ∧ etc <+: dir := by
  constructor
  · rintro ⟨etc, next, rest, hetc, h⟩
    refine ⟨etc, hetc, ?_⟩
    have hway : etc <+: dir ++ [name] := ⟨next :: rest, h.symm⟩
    rcases List.prefix_concat_iff.1 hway with hwhole | hway
    · have hlength := congrArg List.length h
      rw [← hwhole, List.length_append, List.length_cons] at hlength
      omega
    · exact hway
  · rintro ⟨etc, hetc, more, rfl⟩
    cases more with
    | nil => exact ⟨etc, name, [], hetc, by rw [List.append_nil]⟩
    | cons next rest =>
        exact ⟨etc, next, rest ++ [name], hetc, by
          rw [List.append_assoc, List.cons_append]⟩

/-- What lies below a place in `/etc` lies in `/etc`. -/
theorem InsideEtc.mono {place below : Place} (h : InsideEtc tree place)
    (hway : place <+: below) : InsideEtc tree below := by
  obtain ⟨etc, name, rest, hetc, rfl⟩ := h
  obtain ⟨more, rfl⟩ := hway
  exact ⟨etc, name, rest ++ more, hetc, by
    rw [List.append_assoc, List.cons_append]⟩

/-- `/etc` is a link. -/
def EtcLinked (tree : FileTree) : Prop :=
  ∃ target, tree.node [etcName] = some (.link target)

/-- If it is none, it leads to itself. -/
theorem etcPlace_unlinked (h : ¬ EtcLinked tree) {etc : Place}
    (hetc : etcPlace tree = some etc) : etc = [etcName] := by
  have hplain : Path.Plain etcName := by decide
  have hwalk (follow : Place → List Name → Option Place)
      (hwalk : tree.walk follow [] [etcName] = some etc) :
      etc = [etcName] := by
    unfold FileTree.walk at hwalk
    rw [if_neg (not_or.2 ⟨hplain.ne_nil, hplain.ne_dot⟩),
      if_neg hplain.ne_dots, List.nil_append] at hwalk
    cases hnode : tree.node [etcName] with
    | none =>
        rw [hnode] at hwalk
        cases hwalk
    | some node =>
        rw [hnode] at hwalk
        cases node with
        | dir =>
            cases hwalk
            rfl
        | file content =>
            cases hwalk
            rfl
        | link target => exact absurd ⟨target, hnode⟩ h
  unfold etcPlace at hetc
  cases hlimit : tree.limit with
  | zero =>
      rw [hlimit] at hetc
      exact hwalk _ hetc
  | succ limit =>
      rw [hlimit] at hetc
      exact hwalk _ hetc

/-- Making directories makes it none. -/
theorem unlinked_filled (h : ¬ EtcLinked tree) (dest : Place) :
    ¬ EtcLinked (tree.filled dest) := by
  rintro ⟨target, hlink⟩
  change (if _ then _ else _) = _ at hlink
  split at hlink
  · cases hlink
  · exact h ⟨target, hlink⟩

-- ============================================================= the check

/-- The check on a text is one on the first name. -/
theorem underEtc_ofNames_iff {names : List Name}
    (h : ∀ name ∈ names, Path.Plain name) :
    underEtc (Path.ofNames names) = true ↔
      names.head? = some etcName := by
  rw [← Path.ofNames_under_iff h (show Path.Plain etcName by decide),
    underEtc, Bool.or_eq_true, beq_iff_eq, List.isPrefixOf_iff_prefix]
  rfl

/-- A path that passes leads to no directory of `/etc`. -/
theorem directoryOf_outside (h : refusesPath tree path = false)
    {dir : Place} (hdir : tree.directoryOf path = some dir) :
    dir.head? ≠ some etcName := by
  intro hetc
  have hunder := (underEtc_ofNames_iff
    (FileTree.directoryOf_plain hdir)).2 hetc
  unfold refusesPath FileTree.canonicalPath at h
  rw [hdir] at h
  rw [Bool.or_eq_false_iff] at h
  exact absurd hunder (by rw [h.2]; exact Bool.false_ne_true)

-- ============================================================== the save

/-- What a save went through. -/
theorem save_ok
    (h : saveMapProvidersToState tree faults path providers = .ok saved) :
    refusesPath tree path = false ∧
      tree.makePath [] (tree.absolutePath path)
        = some (saved.prepared, saved.directories) ∧
      saved.prepared.saveFile path
          (Catalogue.saveMapProvidersToState providers)
        = some (saved.tree, saved.file) := by
  unfold saveMapProvidersToState at h
  split at h
  · cases h
  split at h
  · cases h
  rename_i hrefuse
  simp only at h
  split at h
  · cases h
  rename_i tree' directories hmake
  split at h
  · cases h
  rename_i tree'' file hsave
  split at h
  · cases h
  split at h
  · cases h
  cases h
  refine ⟨Bool.eq_false_iff.2 hrefuse, ?_, ?_⟩
  · split at hmake
    · cases hmake
    · exact hmake
  · split at hsave
    · cases hsave
    · exact hsave

/-- The directories that a save makes, and what it leaves for the file. -/
theorem save_made
    (h : saveMapProvidersToState tree faults path providers = .ok saved) :
    ∃ dest, saved.prepared = tree.filled dest ∧
      FileTree.Made tree [] (tree.absolutePath path)
        (tree.filled dest) saved.directories dest ∧
      (tree.filled dest).placeOf ((tree.filled dest).saveTarget path)
        = some saved.file := by
  obtain ⟨-, hmake, hsave⟩ := save_ok h
  have hroot : tree.resolve tree.limit [] [] = some [] := by
    cases tree.limit with
    | zero => rfl
    | succ limit => rfl
  obtain ⟨dest, hmade⟩ := FileTree.makePath_ok
    (FileTree.absolutePath_plain path) hroot tree.root hmake
  have htree := hmade.tree_eq
  rw [htree] at hmade hsave
  exact ⟨dest, htree, hmade, FileTree.saveFile_place hsave⟩

-- ==================================================== the ways into `/etc`

/-- How a path leads into `/etc`: by directories that are missing and would
lie there, or to what would be written, with the directories filled in, by
a link, by a missing directory or because `/etc` is a link. -/
inductive LeadsIntoEtc (tree : FileTree) (path : Text) : Prop
  | directory {dest : Place}
      (hdest : tree.destination [] (tree.absolutePath path) = some dest)
      (hfree : tree.node dest = none)
      (hetc : InsideEtc (tree.filled dest) dest)
  | file {dest place : Place}
      (hdest : tree.destination [] (tree.absolutePath path) = some dest)
      (hcause : (tree.filled dest).linkAt path ≠ none ∨
        tree.directoryOf path = none ∨ EtcLinked tree)
      (hplace : (tree.filled dest).placeOf
        ((tree.filled dest).saveTarget path) = some place)
      (hetc : InsideEtc (tree.filled dest) place)

/-- What a save made lies outside `/etc`, as it was when the file was
written. -/
structure LeavesEtc (saved : Saved) : Prop where
  file : ¬ InsideEtc saved.prepared saved.file
  directories : ∀ dir ∈ saved.directories, ¬ InsideEtc saved.prepared dir

/-- A directory that was there, in a path that is no link, lies outside
`/etc` if that is no link either: the check has seen it. -/
theorem outside_of_seen (hpass : refusesPath tree path = false)
    {dest dir place : Place}
    (hextends : (tree.filled dest).Extends tree)
    (hdirectory : tree.directoryOf path = some dir)
    (hlink : (tree.filled dest).linkAt path = none)
    (hunlinked : ¬ EtcLinked tree)
    (hplace : (tree.filled dest).placeOf
      ((tree.filled dest).saveTarget path) = some place) :
    ¬ InsideEtc (tree.filled dest) place := by
  intro hetc
  rw [FileTree.saveTarget_of_linkAt hlink, FileTree.placeOf,
    FileTree.directoryOf_mono hextends hdirectory] at hplace
  rw [← Option.some.inj hplace, insideEtc_append_iff] at hetc
  obtain ⟨etc, hetc, more, rfl⟩ := hetc
  cases etcPlace_unlinked (unlinked_filled hunlinked dest) hetc
  exact directoryOf_outside hpass hdirectory rfl

/-- A save leaves `/etc` alone if and only if its path does not lead there
by directories that are missing, by a link in the last place or by a link
that `/etc` is. -/
theorem untouched_iff
    (h : saveMapProvidersToState tree faults path providers = .ok saved) :
    LeavesEtc saved ↔ ¬ LeadsIntoEtc tree path := by
  have hpass := (save_ok h).1
  obtain ⟨dest, hprepared, hmade, hfile⟩ := save_made h
  constructor
  · rintro ⟨houtside, hdirectories⟩ hleads
    rw [hprepared] at houtside hdirectories
    cases hleads with
    | directory hdest hfree hetc =>
        cases hmade.destination.symm.trans hdest
        exact hdirectories dest
          ((hmade.made_iff dest).2 ⟨List.prefix_rfl, hfree⟩) hetc
    | file hdest _ hplace hetc =>
        cases hmade.destination.symm.trans hdest
        cases hfile.symm.trans hplace
        exact houtside hetc
  · intro hleads
    refine ⟨fun hetc => hleads ?_, fun dir hdir hetc => hleads ?_⟩
    · rw [hprepared] at hetc
      refine .file hmade.destination ?_ hfile hetc
      by_contra hseen
      rw [not_or, not_or, not_not] at hseen
      obtain ⟨hlink, hthere, hunlinked⟩ := hseen
      obtain ⟨dir, hdirectory⟩ := Option.ne_none_iff_exists'.1 hthere
      exact outside_of_seen hpass hmade.extension hdirectory hlink hunlinked
        hfile hetc
    · rw [hprepared] at hetc
      have hway := (hmade.made_iff dir).1 hdir
      obtain ⟨more, hmore⟩ := hway.1
      refine .directory hmade.destination ?_ (hetc.mono hway.1)
      rw [← hmore]
      exact FileTree.node_below hway.2 more

-- ======================================================= trees with links

/-- A root with nothing in it. -/
def emptyTree : FileTree where
  node place := if place = [] then some .dir else none
  current := []
  limit := 40
  root := if_pos rfl
  parent place name h := absurd (if_neg (by simp)) h
  named place name h := absurd (if_neg (by simp)) h
  current_dir := if_pos rfl

/-- `/etc`, which is empty. -/
def etcTree : FileTree :=
  emptyTree.put [] etcName .dir rfl (by decide) (by decide)

/-- A link in the root, next to `/etc`. -/
def linkTree (name : Name) (target : List Char) (hname : Path.Plain name)
    (hfree : etcTree.node [name] = none) : FileTree :=
  etcTree.put [] name (.link target) rfl
    (by rw [List.nil_append, hfree]; simp) hname

/-- `/state`, a link to a file of `/etc`. -/
def linkedFile : FileTree :=
  linkTree "state".toList "/etc/providers.ini".toList (by decide) (by decide)

/-- `/data`, a link to `/etc`. -/
def linkedDirectory : FileTree :=
  linkTree "data".toList "/etc".toList (by decide) (by decide)

/-- `/etc` as a link to `/private/etc`, which is empty. -/
def linkedEtc : FileTree :=
  ((emptyTree.put [] "private".toList .dir rfl (by decide) (by decide)).put
    ["private".toList] etcName .dir (by decide) (by decide) (by decide)).put
      [] etcName (.link "/private/etc".toList) (by decide) (by decide)
        (by decide)

/-- Nothing fails. -/
def noFaults : Faults where
  makePath := false
  opening := false
  permissions := false
  writing := false
  errorString := []

/-- Where `/etc` is in a save, and what the save made: the directories, and
the place of the file. -/
def places (result : Except Text Saved) :
    Option (Option Place × List Place × Place) :=
  result.toOption.map fun saved =>
    (etcPlace saved.prepared, saved.directories, saved.file)

theorem saved_of_places {result : Except Text Saved} {etc : Option Place}
    {directories : List Place} {file : Place}
    (h : places result = some (etc, directories, file)) :
    ∃ saved, result = .ok saved ∧ etcPlace saved.prepared = etc ∧
      saved.directories = directories ∧ saved.file = file := by
  cases result with
  | error message => cases h
  | ok saved =>
      cases h
      exact ⟨saved, rfl, rfl, rfl, rfl⟩

theorem places_linkedFile :
    places (saveMapProvidersToState linkedFile noFaults "/state".toList [])
      = some (some [etcName], [], [etcName, "providers.ini".toList]) := by
  decide +kernel

theorem places_linkedDirectory :
    places (saveMapProvidersToState linkedDirectory noFaults
      "/data/new/providers.ini".toList [])
      = some (some [etcName], [[etcName, "new".toList]],
        [etcName, "new".toList, "providers.ini".toList]) := by
  decide +kernel

theorem places_linkedEtc :
    places (saveMapProvidersToState linkedEtc noFaults
      "/private/etc/providers.ini".toList [])
      = some (some ["private".toList, etcName], [],
        ["private".toList, etcName, "providers.ini".toList]) := by
  decide +kernel

theorem places_etcTree :
    places (saveMapProvidersToState etcTree noFaults
      "/state/providers.ini".toList [])
      = some (some [etcName], [["state".toList]],
        ["state".toList, "providers.ini".toList]) := by
  decide +kernel

/-- Saving to `/state` writes a file in `/etc`, saving to
`/data/new/providers.ini` makes a directory in it too, and saving to
`/private/etc/providers.ini` writes where `/etc` leads. -/
theorem saved_in_etc :
    (∃ saved, saveMapProvidersToState linkedFile noFaults "/state".toList []
        = .ok saved ∧ InsideEtc saved.prepared saved.file) ∧
    (∃ saved, saveMapProvidersToState linkedDirectory noFaults
        "/data/new/providers.ini".toList [] = .ok saved ∧
      InsideEtc saved.prepared saved.file ∧
      ∃ dir ∈ saved.directories, InsideEtc saved.prepared dir) ∧
    ∃ saved, saveMapProvidersToState linkedEtc noFaults
        "/private/etc/providers.ini".toList [] = .ok saved ∧
      InsideEtc saved.prepared saved.file := by
  refine ⟨?_, ?_, ?_⟩
  · obtain ⟨saved, hsaved, hetc, -, hfile⟩ :=
      saved_of_places places_linkedFile
    exact ⟨saved, hsaved, _, _, [], hetc, hfile⟩
  · obtain ⟨saved, hsaved, hetc, hdirectories, hfile⟩ :=
      saved_of_places places_linkedDirectory
    refine ⟨saved, hsaved, ⟨_, "new".toList, _, hetc, hfile⟩, ?_⟩
    rw [hdirectories]
    exact ⟨_, List.mem_cons_self, _, "new".toList, [], hetc, rfl⟩
  · obtain ⟨saved, hsaved, hetc, -, hfile⟩ :=
      saved_of_places places_linkedEtc
    exact ⟨saved, hsaved, _, _, [], hetc, hfile⟩

/-- Next to an empty `/etc`, the state can be saved. -/
theorem untouched_state :
    ∃ saved, saveMapProvidersToState etcTree noFaults
        "/state/providers.ini".toList [] = .ok saved ∧
      LeavesEtc saved ∧
      ¬ LeadsIntoEtc etcTree "/state/providers.ini".toList := by
  obtain ⟨saved, hsaved, hetc, hdirectories, hfile⟩ :=
    saved_of_places places_etcTree
  have houtside : ∀ place, etcName ≠ place.headD [] →
      ¬ InsideEtc saved.prepared place := by
    rintro place hfirst ⟨etc, name, rest, hplace, rfl⟩
    cases hetc.symm.trans hplace
    exact hfirst rfl
  have hleaves : LeavesEtc saved := by
    refine ⟨houtside _ ?_, fun dir hdir => houtside _ ?_⟩
    · rw [hfile]
      decide
    · rw [hdirectories, List.mem_singleton] at hdir
      rw [hdir]
      decide
  exact ⟨saved, hsaved, hleaves, (untouched_iff hsaved).1 hleaves⟩

-- =========================================================== clean paths

/-- A clean path leads into `/etc` if its directory is missing and would be
made at `/etc` or inside, or if it or `/etc` is a link in the tree as it is
and what it stands for lies inside. -/
theorem leadsIntoEtc_ofNames {names : List Name}
    (hplain : ∀ name ∈ names, Path.Plain name) (hsome : names ≠ [])
    (h : saveMapProvidersToState tree faults (Path.ofNames names) providers
      = .ok saved) :
    LeadsIntoEtc tree (Path.ofNames names) ↔
      (tree.directoryOf (Path.ofNames names) = none ∧ ∃ dest etc,
        tree.destination [] names.dropLast = some dest ∧
        etcPlace (tree.filled dest) = some etc ∧ etc <+: dest) ∨
      (tree.directoryOf (Path.ofNames names) ≠ none ∧
        (tree.linkAt (Path.ofNames names) ≠ none ∨ EtcLinked tree) ∧
        ∃ place,
          tree.placeOf (tree.saveTarget (Path.ofNames names)) = some place ∧
          InsideEtc tree place) := by
  obtain ⟨dest, -, hmade, hfile⟩ := save_made h
  have hdestination := hmade.destination
  have hleads := hmade.leads
  rw [FileTree.absolutePath_ofNames hplain hsome] at hdestination hleads
  rw [List.nil_append, ← FileTree.directoryOf_ofNames hplain hsome] at hleads
  cases hdirectory : tree.directoryOf (Path.ofNames names) with
  | some dir =>
      -- nothing is made, so the tree stays what it is
      have hdest := FileTree.directoryOf_mono hmade.extension hdirectory
      cases hdest.symm.trans hleads
      have hnode : tree.node dest ≠ none :=
        FileTree.resolve_node (FileTree.start_dir _) hdirectory
      have hsame := hmade.filled_eq hnode
      constructor
      · intro hetc
        cases hetc with
        | directory hdest hfree hetc =>
            cases hmade.destination.symm.trans hdest
            exact absurd hfree hnode
        | file hdest hcause hplace hetc =>
            cases hmade.destination.symm.trans hdest
            rw [hsame] at hcause hplace hetc
            refine Or.inr ⟨Option.some_ne_none dest, ?_, _, hplace, hetc⟩
            rcases hcause with hlink | hnone | hlinked
            · exact Or.inl hlink
            · rw [hdirectory] at hnone
              cases hnone
            · exact Or.inr hlinked
      · rintro (⟨hnone, -⟩ | ⟨-, hcause, place, hplace, hetc⟩)
        · cases hnone
        · rw [← hsame] at hplace hetc
          refine .file hmade.destination ?_ hplace hetc
          rw [hsame]
          exact hcause.imp_right Or.inr
  | none =>
      -- the directory is made, and no link lies in it
      have hfree : tree.node dest = none := by
        by_contra hnode
        rw [hmade.filled_eq hnode, hdirectory] at hleads
        cases hleads
      have hlink : (tree.filled dest).linkAt (Path.ofNames names) = none := by
        have hbelow : (tree.filled dest).node
            (dest ++ [FileTree.fileName (Path.ofNames names)]) = none := by
          refine (if_neg fun hway => ?_).trans (FileTree.node_below hfree _)
          have hlength := hway.1.length_le
          rw [List.length_append, List.length_singleton] at hlength
          omega
        unfold FileTree.linkAt FileTree.placeOf
        rw [hleads, Option.map_some, Option.bind_some, hbelow]
      have hplace : (tree.filled dest).placeOf
          ((tree.filled dest).saveTarget (Path.ofNames names))
          = some (dest ++ [FileTree.fileName (Path.ofNames names)]) := by
        rw [FileTree.saveTarget_of_linkAt hlink, FileTree.placeOf, hleads,
          Option.map_some]
      constructor
      · intro hleadsInto
        have hetc : InsideEtc (tree.filled dest)
            (dest ++ [FileTree.fileName (Path.ofNames names)]) := by
          cases hleadsInto with
          | directory hdest _ hetc =>
              cases hmade.destination.symm.trans hdest
              exact hetc.mono (List.prefix_append _ _)
          | file hdest _ hsaved hetc =>
              cases hmade.destination.symm.trans hdest
              cases hplace.symm.trans hsaved
              exact hetc
        obtain ⟨etc, hetc, hway⟩ := insideEtc_append_iff.1 hetc
        exact Or.inl ⟨rfl, dest, etc, hdestination, hetc, hway⟩
      · rintro (⟨-, other, etc, hother, hetc, hway⟩ | ⟨hthere, -⟩)
        · cases hdestination.symm.trans hother
          exact .file hmade.destination (Or.inr (Or.inl hdirectory)) hplace
            (insideEtc_append_iff.2 ⟨etc, hetc, hway⟩)
        · exact absurd rfl hthere

end AowisMap.Server
