/-
What a coverage section means: each of its zooms holds until the next one.

# Tiers

The starts of a section are kept in their order (`readStarts_ok`), so the
tiers between them cover every zoom from the first start to 30 once
(`checkTiers_ok`), and the tier of a zoom is that of the greatest start
before it (`tiersOf_any`).

# Sections

A section only adds its own profile (`readCoverage_frame`), so what it
adds is still there at the end.
-/
import AowisMap.Server.CoverageSections

namespace AowisMap.Server

open Lib Catalogue

-- ================================================================= keys

/-- The key of a zoom. -/
def zoomKey (n : Nat) : Text := "zoom_".toList ++ QString.number n

/-- The key of a zoom is read back. -/
theorem tierZoom_zoomKey {n : Nat} (h : n ≤ 30) :
    tierZoom (zoomKey n) = some n := by
  have hall : ∀ n < 31, tierZoom (zoomKey n) = some n := by decide
  exact hall n (by omega)

theorem zoomKey_inj {m n : Nat} (hm : m ≤ 30) (hn : n ≤ 30)
    (h : zoomKey m = zoomKey n) : m = n := by
  have hread := tierZoom_zoomKey hm
  rw [h, tierZoom_zoomKey hn] at hread
  exact (Option.some.inj hread).symm

-- ============================================================= sections

/-- A coverage section as the documentation wants it: keys `zoom_N` with
`zoom_0` among them, and lists of known regions that are not empty. -/
structure WellFormed (coverage : DownloadCoverage) (group : Group) :
    Prop where
  isCoverage : coveragePrefix.isPrefixOf group.name = true
  keys : ∀ entry ∈ group.entries, ∃ n ≤ 30, entry.1 = zoomKey n
  first : ∃ entry ∈ group.entries, entry.1 = zoomKey 0
  regions : ∀ entry ∈ group.entries, regionNames entry.2 ≠ [] ∧
    ∀ name ∈ regionNames entry.2, coverage.hasRegion name = true

/-- The entry of the greatest zoom that is not above a zoom. -/
def IsEntryAt (group : Group) (zoom : Int) (value : List Text) : Prop :=
  ∃ n : Nat, (zoomKey n, value) ∈ group.entries ∧ (n : Int) ≤ zoom ∧
    ∀ m : Nat, m ≤ 30 → (∃ value', (zoomKey m, value') ∈ group.entries) →
      (m : Int) ≤ zoom → m ≤ n

/-- A region that meets an area: the whole world, or a rectangle or a
polygon of the region does. -/
def Meets (coverage : DownloadCoverage) (name : Text) (area : Bounds) :
    Prop :=
  name = world ∨ ∃ region, coverage.regions.lookup name = some region ∧
    ((∃ rectangle ∈ region.rectangles, intersects rectangle area = true) ∨
      ∃ polygon ∈ region.polygons, intersectsPolygon polygon area = true)

/-- The code's test of a region. -/
theorem permitsRegion_iff {coverage : DownloadCoverage} {name : Text}
    {area : Bounds} :
    coverage.permitsRegion name area = true ↔ Meets coverage name area := by
  unfold DownloadCoverage.permitsRegion Meets
  rw [Bool.or_eq_true, beq_iff_eq]
  cases coverage.regions.lookup name with
  | none => simp
  | some region => simp

-- ================================================================ starts

/-- Starts in the order of their zooms. -/
def Ascending (starts : List (Nat × List Text)) : Prop :=
  starts.Pairwise fun a b => a.1 < b.1

theorem ascending_insert {starts : List (Nat × List Text)}
    (h : Ascending starts) (start : Nat × List Text)
    (hnew : start.1 ∉ starts.map Prod.fst) :
    Ascending (starts.orderedInsert (fun a b => a.1 ≤ b.1) start) := by
  induction starts with
  | nil => exact List.pairwise_singleton _ _
  | cons first rest ih =>
      obtain ⟨hfirst, hrest⟩ := List.pairwise_cons.1 h
      rw [List.map_cons, List.mem_cons, not_or] at hnew
      by_cases hle : start.1 ≤ first.1
      · have hlt : start.1 < first.1 := lt_of_le_of_ne hle hnew.1
        rw [List.orderedInsert_cons, if_pos hle]
        refine List.pairwise_cons.2 ⟨?_, h⟩
        intro other hother
        rcases List.mem_cons.1 hother with rfl | hmem
        · exact hlt
        · exact hlt.trans (hfirst other hmem)
      · rw [List.orderedInsert_cons, if_neg hle]
        refine List.pairwise_cons.2 ⟨?_, ih hrest hnew.2⟩
        intro other hother
        rcases (List.mem_orderedInsert _).1 hother with rfl | hmem
        · exact Nat.lt_of_not_le hle
        · exact hfirst other hmem

/-- The starts of well-formed keys: one for each, in their order. -/
theorem readStarts_ok {group : Text} {entries : List (Text × List Text)} :
    ∀ {starts : List (Nat × List Text)}, Ascending starts →
      (∀ entry ∈ entries, ∃ n ≤ 30, entry.1 = zoomKey n ∧
        n ∉ starts.map Prod.fst) →
      (∀ entry ∈ entries, regionNames entry.2 ≠ []) →
      (entries.map Prod.fst).Nodup →
      ∃ starts', readStarts group starts entries = .ok starts' ∧
        Ascending starts' ∧
        ∀ start, start ∈ starts' ↔ start ∈ starts ∨
          ∃ entry ∈ entries, start.1 ≤ 30 ∧ entry.1 = zoomKey start.1 ∧
            regionNames entry.2 = start.2 := by
  induction entries with
  | nil =>
      intro starts hsorted _ _ _
      refine ⟨starts, rfl, hsorted, fun start => ?_⟩
      simp
  | cons entry entries ih =>
      intro starts hsorted hkeys hnames hnodup
      obtain ⟨key, value⟩ := entry
      obtain ⟨n, hn, hkey, hnew⟩ := hkeys _ List.mem_cons_self
      have hkey : key = zoomKey n := hkey
      subst hkey
      obtain ⟨hfresh, hrest⟩ := List.nodup_cons.1 hnodup
      have hvalue : regionNames value ≠ [] :=
        hnames (zoomKey n, value) List.mem_cons_self
      have hsorted' := ascending_insert hsorted (n, regionNames value) hnew
      obtain ⟨starts', hread, hascending, hmem⟩ := ih hsorted' (by
        intro entry hentry
        obtain ⟨m, hm, hkey, hother⟩ := hkeys entry
          (List.mem_cons_of_mem _ hentry)
        refine ⟨m, hm, hkey, ?_⟩
        intro hinserted
        obtain ⟨start, hstart, rfl⟩ := List.mem_map.1 hinserted
        rcases (List.mem_orderedInsert _).1 hstart with rfl | hold
        · exact hfresh (List.mem_map.2 ⟨entry, hentry, hkey⟩)
        · exact hother (List.mem_map.2 ⟨start, hold, rfl⟩))
        (fun entry hentry => hnames entry (List.mem_cons_of_mem _ hentry))
        hrest
      refine ⟨starts', ?_, hascending, ?_⟩
      · unfold readStarts
        rw [tierZoom_zoomKey hn]
        simp only
        rw [if_neg (not_or.2 ⟨hvalue, hnew⟩)]
        exact hread
      · intro start
        rw [hmem, List.mem_orderedInsert]
        constructor
        · rintro ((rfl | hold) | ⟨entry, hentry, hstart⟩)
          · exact Or.inr ⟨_, List.mem_cons_self, hn, rfl, rfl⟩
          · exact Or.inl hold
          · exact Or.inr ⟨entry, List.mem_cons_of_mem _ hentry, hstart⟩
        · rintro (hold | ⟨entry, hentry, hle, hkey, hvalue⟩)
          · exact Or.inl (Or.inr hold)
          · rcases List.mem_cons.1 hentry with rfl | hmem
            · have hzoom : n = start.1 := zoomKey_inj hn hle hkey
              exact Or.inl (Or.inl (Prod.ext hzoom.symm hvalue.symm))
            · exact Or.inr ⟨entry, hmem, hle, hkey, hvalue⟩

-- ================================================================= tiers

/-- Zooms in a row that begin where the marked ones end. -/
theorem markZooms_range {count : Nat} :
    ∀ {seen : Nat → Bool} {first : Nat},
      (∀ z, seen z = decide (z < first)) →
      ∃ marked, markZooms seen (List.range' first count) = some marked ∧
        ∀ z, marked z = decide (z < first + count) := by
  induction count with
  | zero => exact fun hseen => ⟨_, rfl, hseen⟩
  | succ count ih =>
      intro seen first hseen
      have hfree : seen first = false := by
        rw [hseen]
        exact decide_eq_false (Nat.lt_irrefl first)
      have hnext : ∀ z, Function.update seen first true z
          = decide (z < first + 1) := by
        intro z
        by_cases hz : z = first
        · subst hz
          rw [Function.update_self, decide_eq_true (Nat.lt_succ_self z)]
        · rw [Function.update_of_ne hz, hseen]
          exact decide_eq_decide.2 (by omega)
      obtain ⟨marked, hmarked, hall⟩ := ih hnext
      refine ⟨marked, ?_, ?_⟩
      · rw [List.range'_succ]
        unfold markZooms
        rw [if_neg (by rw [hfree]; exact Bool.false_ne_true)]
        exact hmarked
      · intro z
        rw [hall, Nat.add_assoc, Nat.add_comm 1]

section Tiers

variable {coverage : DownloadCoverage} {name : Text}

/-- A tier of known regions that begins where the marked zooms end. -/
theorem checkTier_ok {seen : Nat → Bool} {first last : Nat}
    {regions : List Text} (hle : first ≤ last) (hlast : last ≤ 30)
    (hseen : ∀ z, seen z = decide (z < first)) (hsome : regions ≠ [])
    (hknown : ∀ region ∈ regions, coverage.hasRegion region = true) :
    ∃ marked, coverage.checkTier name seen ⟨first, last, regions⟩
        = .ok marked ∧ ∀ z, marked z = decide (z < last + 1) := by
  have hzooms : Tier.zooms ⟨first, last, regions⟩
      = List.range' first (last + 1 - first) := by
    unfold Tier.zooms
    simp only [Int.toNat_natCast]
    congr 1
    omega
  have hfind : regions.find? (fun region => !coverage.hasRegion region)
      = none := by
    rw [List.find?_eq_none]
    intro region hregion
    rw [hknown region hregion]
    exact Bool.false_ne_true
  have hrange : ¬((first : Int) < 0 ∨ (30 : Int) < last ∨
      (last : Int) < first ∨ regions = []) := by
    rintro (h | h | h | h)
    · omega
    · omega
    · omega
    · exact hsome h
  obtain ⟨marked, hmarked, hall⟩ :=
    @markZooms_range (last + 1 - first) seen first hseen
  refine ⟨marked, ?_, ?_⟩
  · unfold DownloadCoverage.checkTier
    rw [if_neg hrange]
    simp only [hfind, hzooms, hmarked]
  · intro z
    rw [hall, Nat.add_sub_cancel' (by omega)]

/-- The tiers between starts cover every zoom from the first one on, and
none of them twice. -/
theorem checkTiers_ok {starts : List (Nat × List Text)} :
    ∀ {first : Nat × List Text} {seen : Nat → Bool},
      Ascending (first :: starts) →
      (∀ start ∈ first :: starts, start.1 ≤ 30 ∧ start.2 ≠ [] ∧
        ∀ region ∈ start.2, coverage.hasRegion region = true) →
      (∀ z, seen z = decide (z < first.1)) →
      ∃ marked, coverage.checkTiers name seen (tiersOf (first :: starts))
          = .ok marked ∧ ∀ z, marked z = decide (z < 31) := by
  induction starts with
  | nil =>
      intro first seen _ hstarts hseen
      obtain ⟨hle, hsome, hknown⟩ := hstarts first List.mem_cons_self
      obtain ⟨marked, hmarked, hall⟩ := @checkTier_ok coverage name seen
        first.1 30 first.2 hle (le_refl 30) hseen hsome hknown
      refine ⟨marked, ?_, hall⟩
      have htiers : tiersOf [first] = [⟨first.1, (30 : Nat), first.2⟩] := rfl
      rw [htiers, DownloadCoverage.checkTiers, hmarked]
      rfl
  | cons next starts ih =>
      intro first seen hsorted hstarts hseen
      obtain ⟨hfirst, hrest⟩ := List.pairwise_cons.1 hsorted
      have hlt := hfirst next List.mem_cons_self
      obtain ⟨hnext, -, -⟩ :=
        hstarts next (List.mem_cons_of_mem _ List.mem_cons_self)
      obtain ⟨-, hsome, hknown⟩ := hstarts first List.mem_cons_self
      obtain ⟨marked, hmarked, hall⟩ := @checkTier_ok coverage name seen
        first.1 (next.1 - 1) first.2 (by omega) (by omega) hseen hsome hknown
      have hmiddle : ∀ z, marked z = decide (z < next.1) := by
        intro z
        rw [hall, Nat.sub_add_cancel (by omega)]
      obtain ⟨marked', hmarked', hall'⟩ := ih hrest
        (fun start hstart => hstarts start (List.mem_cons_of_mem _ hstart))
        hmiddle
      refine ⟨marked', ?_, hall'⟩
      have hlast : (next.1 : Int) - 1 = ((next.1 - 1 : Nat) : Int) := by omega
      have htiers : tiersOf (first :: next :: starts)
          = ⟨first.1, (next.1 - 1 : Nat), first.2⟩ ::
            tiersOf (next :: starts) := by
        rw [← hlast]
        rfl
      rw [htiers, DownloadCoverage.checkTiers, hmarked]
      exact hmarked'

end Tiers

/-- The tier of a zoom is that of the greatest start before it. -/
theorem tiersOf_any {zoom : Int} (hzoom : zoom ≤ 30)
    {P : List Text → Prop} {starts : List (Nat × List Text)} :
    Ascending starts →
      ((∃ tier ∈ tiersOf starts, tier.minimumZoom ≤ zoom ∧
          zoom ≤ tier.maximumZoom ∧ P tier.regions) ↔
        ∃ start ∈ starts, (start.1 : Int) ≤ zoom ∧
          (∀ other ∈ starts, (other.1 : Int) ≤ zoom →
            other.1 ≤ start.1) ∧ P start.2) := by
  induction starts with
  | nil =>
      intro _
      simp [tiersOf]
  | cons first starts ih =>
      intro hsorted
      obtain ⟨hfirst, hrest⟩ := List.pairwise_cons.1 hsorted
      cases starts with
      | nil =>
          simp [tiersOf, hzoom]
      | cons next starts =>
          have hlt := hfirst next List.mem_cons_self
          have htiers : tiersOf (first :: next :: starts)
              = ⟨first.1, (next.1 : Int) - 1, first.2⟩
                :: tiersOf (next :: starts) := rfl
          rw [htiers, List.exists_mem_cons_iff, ih hrest]
          constructor
          · rintro (⟨hlow, hhigh, hP⟩ | ⟨start, hstart, hlow, hmost, hP⟩)
            · refine ⟨first, List.mem_cons_self, hlow, ?_, hP⟩
              intro other hother hle
              rcases List.mem_cons.1 hother with rfl | hmem
              · exact le_refl _
              · exfalso
                have hge : next.1 ≤ other.1 := by
                  rcases List.mem_cons.1 hmem with rfl | hlater
                  · exact le_refl _
                  · exact ((List.pairwise_cons.1 hrest).1 other hlater).le
                simp only at hhigh
                omega
            · refine ⟨start, List.mem_cons_of_mem _ hstart, hlow, ?_, hP⟩
              intro other hother hle
              rcases List.mem_cons.1 hother with rfl | hmem
              · exact (hfirst start hstart).le
              · exact hmost other hmem hle
          · rintro ⟨start, hstart, hlow, hmost, hP⟩
            rcases List.mem_cons.1 hstart with rfl | hmem
            · refine Or.inl ⟨hlow, ?_, hP⟩
              have hnext : ¬(next.1 : Int) ≤ zoom := by
                intro hle
                have hmax := hmost next
                  (List.mem_cons_of_mem _ List.mem_cons_self) hle
                omega
              simp only
              omega
            · refine Or.inr ⟨start, hmem, hlow, ?_, hP⟩
              intro other hother hle
              exact hmost other (List.mem_cons_of_mem _ hother) hle

-- ============================================================== profiles

/-- The starts of a section. -/
structure StartsOf (group : Group) (starts : List (Nat × List Text)) :
    Prop where
  read : readStarts group.name [] group.entries = .ok starts
  ascending : Ascending starts
  mem : ∀ start, start ∈ starts ↔ ∃ entry ∈ group.entries,
    start.1 ≤ 30 ∧ entry.1 = zoomKey start.1 ∧ regionNames entry.2 = start.2
  zero : ∃ regions rest, starts = (0, regions) :: rest

variable {coverage : DownloadCoverage} {group : Group}

theorem WellFormed.startsOf (h : WellFormed coverage group) :
    ∃ starts, StartsOf group starts := by
  have hkeys : ∀ entry ∈ group.entries, ∃ n ≤ 30, entry.1 = zoomKey n ∧
      n ∉ ([] : List (Nat × List Text)).map Prod.fst := by
    intro entry hentry
    obtain ⟨n, hn, hkey⟩ := h.keys entry hentry
    exact ⟨n, hn, hkey, List.not_mem_nil⟩
  obtain ⟨starts, hread, hsorted, hmem⟩ := @readStarts_ok group.name _ []
    List.Pairwise.nil hkeys (fun entry hentry => (h.regions entry hentry).1)
    group.nodup
  have hmem : ∀ start, start ∈ starts ↔ ∃ entry ∈ group.entries,
      start.1 ≤ 30 ∧ entry.1 = zoomKey start.1 ∧
        regionNames entry.2 = start.2 := by
    intro start
    rw [hmem]
    simp only [List.not_mem_nil, false_or]
  refine ⟨starts, hread, hsorted, hmem, ?_⟩
  -- The start of zoom 0 is the first of all.
  obtain ⟨entry, hentry, hkey⟩ := h.first
  have hzero := (hmem (0, regionNames entry.2)).2
    ⟨entry, hentry, Nat.zero_le 30, hkey, rfl⟩
  cases starts with
  | nil => cases hzero
  | cons first rest =>
      have hfirst : first.1 = 0 := by
        rcases List.mem_cons.1 hzero with hsame | hlater
        · rw [← hsame]
        · have hlt := (List.pairwise_cons.1 hsorted).1 _ hlater
          exact absurd hlt (Nat.not_lt_zero _)
      exact ⟨first.2, rest, by rw [← hfirst]⟩

/-- A section that is read adds its profile. -/
theorem readCoverage_inv {after : DownloadCoverage}
    (h : readCoverage group coverage = .ok after) :
    ∃ starts, readStarts group.name [] group.entries = .ok starts ∧
      after = { coverage with
        profiles := coverage.profiles.insert group.profileName
          ⟨tiersOf starts⟩ } := by
  unfold readCoverage at h
  split at h
  · cases h
  rename_i starts hstarts
  split at h
  · rename_i regions rest
    unfold DownloadCoverage.addProfile at h
    split at h
    · cases h
    split at h
    · cases h
    split at h
    · cases h
      exact ⟨_, hstarts, rfl⟩
    · cases h
  · cases h

/-- The tiers of a well-formed section are accepted. -/
theorem WellFormed.readCoverage_ok (h : WellFormed coverage group)
    (hname : group.profileName ≠ []) :
    ∃ after, readCoverage group coverage = .ok after := by
  obtain ⟨starts, hstarts⟩ := h.startsOf
  obtain ⟨regions, rest, hzero⟩ := hstarts.zero
  have hall : ∀ start ∈ (0, regions) :: rest, start.1 ≤ 30 ∧
      start.2 ≠ [] ∧
      ∀ region ∈ start.2, coverage.hasRegion region = true := by
    intro start hstart
    rw [← hzero] at hstart
    obtain ⟨entry, hentry, hle, -, hregions⟩ := (hstarts.mem start).1 hstart
    rw [← hregions]
    exact ⟨hle, h.regions entry hentry⟩
  have hsorted := hstarts.ascending
  rw [hzero] at hsorted
  obtain ⟨marked, hmarked, hcovered⟩ := @checkTiers_ok coverage
    group.profileName rest (0, regions) (fun _ => false) hsorted hall
    fun z => (decide_eq_false (Nat.not_lt_zero z)).symm
  have htiers : tiersOf ((0, regions) :: rest) ≠ [] := by
    cases rest with
    | nil => exact List.cons_ne_nil _ _
    | cons next rest => exact List.cons_ne_nil _ _
  have hseen : (List.range 31).all marked = true := by
    rw [List.all_eq_true]
    intro z hz
    rw [hcovered]
    exact decide_eq_true (List.mem_range.1 hz)
  refine ⟨{ coverage with
    profiles := coverage.profiles.insert group.profileName
      ⟨tiersOf ((0, regions) :: rest)⟩ }, ?_⟩
  unfold readCoverage
  rw [hstarts.read, hzero]
  simp only
  unfold DownloadCoverage.addProfile
  rw [if_neg (not_or.2 ⟨hname, htiers⟩)]
  simp only [hmarked, hseen]
  rfl

/-- What a profile of a section permits. -/
theorem StartsOf.permitsArea_iff {starts : List (Nat × List Text)}
    (h : StartsOf group starts) (hname : group.profileName ≠ [])
    (hprofile : coverage.profiles.lookup group.profileName
      = some ⟨tiersOf starts⟩)
    {zoom : Int} (hlow : 0 ≤ zoom) (hhigh : zoom ≤ 30) (area : Bounds) :
    coverage.permitsArea group.profileName zoom area = true ↔
      ∃ value, IsEntryAt group zoom value ∧
        ∃ name ∈ regionNames value, Meets coverage name area := by
  have hpermits : coverage.permitsArea group.profileName zoom area = true ↔
      ∃ tier ∈ tiersOf starts, tier.minimumZoom ≤ zoom ∧
        zoom ≤ tier.maximumZoom ∧
        ∃ name ∈ tier.regions, Meets coverage name area := by
    unfold DownloadCoverage.permitsArea
    rw [if_neg hname, if_neg (by omega), hprofile]
    simp only [List.any_eq_true, Bool.and_eq_true, decide_eq_true_eq,
      permitsRegion_iff, and_assoc]
  have hany := @tiersOf_any zoom hhigh
    (fun names => ∃ name ∈ names, Meets coverage name area) starts
    h.ascending
  refine hpermits.trans (hany.trans ?_)
  constructor
  · rintro ⟨start, hstart, hle, hmost, hmeets⟩
    obtain ⟨⟨key, value⟩, hentry, hbound, hkey, hvalue⟩ :=
      (h.mem start).1 hstart
    have hkey : key = zoomKey start.1 := hkey
    subst hkey
    refine ⟨value, ⟨start.1, hentry, hle, ?_⟩, hvalue ▸ hmeets⟩
    rintro m hm ⟨value', hother⟩ hmle
    exact hmost (m, regionNames value')
      ((h.mem _).2 ⟨_, hother, hm, rfl, rfl⟩) hmle
  · rintro ⟨value, ⟨n, hentry, hle, hmost⟩, hmeets⟩
    refine ⟨(n, regionNames value),
      (h.mem _).2 ⟨_, hentry, ?_, rfl, rfl⟩, hle, ?_, hmeets⟩
    · show n ≤ 30
      omega
    · intro other hother hole
      obtain ⟨⟨key, value'⟩, hmem, hbound, hkey, -⟩ := (h.mem other).1 hother
      have hkey : key = zoomKey other.1 := hkey
      subst hkey
      exact hmost other.1 hbound ⟨value', hmem⟩ hole

-- ================================================================== runs

/-- Sections leave the regions and each other's profiles alone. -/
theorem readCoverages_frame {groups : List Group} :
    ∀ {coverage after : DownloadCoverage},
      readCoverages groups coverage = .ok after →
      after.regions = coverage.regions ∧
      ∀ name, (∀ group ∈ groups,
          coveragePrefix.isPrefixOf group.name = true →
          group.profileName ≠ name) →
        after.profiles.lookup name = coverage.profiles.lookup name := by
  induction groups with
  | nil =>
      intro coverage after h
      cases h
      exact ⟨rfl, fun _ _ => rfl⟩
  | cons group groups ih =>
      intro coverage after h
      unfold readCoverages at h
      split at h
      · rename_i hprefix
        split at h
        · rename_i between hbetween
          obtain ⟨starts, -, rfl⟩ := readCoverage_inv hbetween
          obtain ⟨hregions, hprofiles⟩ := ih h
          refine ⟨hregions, fun name hname => ?_⟩
          rw [hprofiles name fun other hother =>
            hname other (List.mem_cons_of_mem _ hother)]
          exact AList.lookup_insert_ne
            (Ne.symm (hname group List.mem_cons_self hprefix))
        · cases h
      · obtain ⟨hregions, hprofiles⟩ := ih h
        refine ⟨hregions, fun name hname => ?_⟩
        exact hprofiles name fun other hother =>
          hname other (List.mem_cons_of_mem _ hother)

/-- Sections of one profile have one name. -/
theorem name_of_profileName {other : Group}
    (h : coveragePrefix.isPrefixOf group.name = true)
    (h' : coveragePrefix.isPrefixOf other.name = true)
    (hsame : group.profileName = other.profileName) :
    group.name = other.name := by
  have happend {text : Text} (h : coveragePrefix.isPrefixOf text = true) :
      coveragePrefix ++ text.drop 9 = text :=
    List.prefix_iff_eq_append.1 (List.isPrefixOf_iff_prefix.1 h)
  rw [← happend h, ← happend h']
  exact congrArg (coveragePrefix ++ ·) hsame

/-- At the end the profile of every section is there. -/
theorem readCoverages_profile {groups : List Group} :
    ∀ {coverage after : DownloadCoverage},
      readCoverages groups coverage = .ok after →
      (groups.map Group.name).Nodup →
      ∀ {starts : List (Nat × List Text)}, group ∈ groups →
        coveragePrefix.isPrefixOf group.name = true →
        StartsOf group starts →
        after.profiles.lookup group.profileName = some ⟨tiersOf starts⟩ := by
  induction groups with
  | nil =>
      intro _ _ _ _ _ hmem
      cases hmem
  | cons first groups ih =>
      intro coverage after h hnodup starts hmem hprefix hstarts
      obtain ⟨hfresh, hrest⟩ := List.nodup_cons.1 hnodup
      unfold readCoverages at h
      rcases List.mem_cons.1 hmem with rfl | hlater
      · rw [if_pos hprefix] at h
        split at h
        · rename_i between hbetween
          obtain ⟨starts', hread, rfl⟩ := readCoverage_inv hbetween
          rw [hstarts.read] at hread
          cases hread
          rw [(readCoverages_frame h).2 group.profileName]
          · exact AList.lookup_insert _
          · intro other hother hcoverage hsame
            have hname := name_of_profileName hcoverage hprefix hsame
            exact hfresh (List.mem_map.2 ⟨other, hother, hname⟩)
        · cases h
      · split at h
        · split at h
          · exact ih h hrest hlater hprefix hstarts
          · cases h
        · exact ih h hrest hlater hprefix hstarts

/-- **Each `zoom_N` applies until the next tier**: the tiers of a
well-formed section with a name are accepted, and once the sections have
been read, its profile permits an area at a zoom if and only if the entry
of the greatest zoom not above it has a region that meets the area. -/
theorem coverage_tiers :
    (∀ (coverage : DownloadCoverage) (group : Group),
      WellFormed coverage group → group.profileName ≠ [] →
      ∃ after, readCoverage group coverage = .ok after) ∧
    ∀ (settings : SettingsGroups) (coverage after : DownloadCoverage),
      readCoverages settings.groups coverage = .ok after →
      ∀ group ∈ settings.groups, WellFormed coverage group →
        group.profileName ≠ [] →
        ∀ zoom : Int, 0 ≤ zoom → zoom ≤ 30 → ∀ area : Bounds,
          (after.permitsArea group.profileName zoom area = true ↔
            ∃ value, IsEntryAt group zoom value ∧
              ∃ name ∈ regionNames value, Meets coverage name area) := by
  refine ⟨fun coverage group h hname => h.readCoverage_ok hname, ?_⟩
  intro settings coverage after hread group hgroup h hname zoom hlow hhigh
    area
  obtain ⟨starts, hstarts⟩ := h.startsOf
  have hprofile := readCoverages_profile hread settings.nodup hgroup
    h.isCoverage hstarts
  rw [hstarts.permitsArea_iff hname hprofile hlow hhigh area]
  unfold Meets
  rw [(readCoverages_frame hread).1]

-- ============================================================= examples

/-- A section with the whole world from zoom 0 on. -/
def worldSection (name : Text) : Group where
  name := name
  entries := [(zoomKey 0, [world])]
  nodup := List.nodup_singleton _

theorem worldSection_wellFormed {name : Text}
    (h : coveragePrefix.isPrefixOf name = true)
    (coverage : DownloadCoverage) :
    WellFormed coverage (worldSection name) where
  isCoverage := h
  keys entry hentry := by
    cases List.mem_singleton.1 hentry
    exact ⟨0, Nat.zero_le 30, rfl⟩
  first := ⟨_, List.mem_cons_self, rfl⟩
  regions entry hentry := by
    cases List.mem_singleton.1 hentry
    refine ⟨List.cons_ne_nil world [], fun region hregion => ?_⟩
    have hregion : region ∈ [world] := hregion
    cases List.mem_singleton.1 hregion
    rfl

/-- Such a section permits every area at zoom 12. -/
theorem coverage_tiers_world :
    ∃ after, readCoverages [worldSection "coverage.all".toList] {}
        = .ok after ∧
      ∀ area, after.permitsArea "all".toList 12 area = true := by
  have hsection : WellFormed {} (worldSection "coverage.all".toList) :=
    worldSection_wellFormed rfl {}
  obtain ⟨after, hafter⟩ := coverage_tiers.1 {} _ hsection (by decide)
  have hread : readCoverages [worldSection "coverage.all".toList] {}
      = .ok after := by
    unfold readCoverages
    rw [if_pos hsection.isCoverage, hafter]
    rfl
  refine ⟨after, hread, fun area => ?_⟩
  refine (coverage_tiers.2
    ⟨[worldSection "coverage.all".toList], List.nodup_singleton _⟩ {} after
    hread _ List.mem_cons_self hsection (by decide) 12 (by decide)
    (by decide) area).2 ?_
  refine ⟨[world], ⟨0, List.mem_cons_self, by decide, ?_⟩, world,
    List.mem_cons_self, Or.inl rfl⟩
  rintro m hm ⟨value, hvalue⟩ -
  have hkey := congrArg Prod.fst (List.mem_singleton.1 hvalue)
  exact (zoomKey_inj hm (Nat.zero_le 30) hkey).le

/-- A section without a name is rejected, as one without tiers. -/
theorem coverage_unnamed :
    ∃ group, WellFormed {} group ∧
      readCoverage group {} = .error
        "Coverage profile '' has no zoom tiers".toList :=
  ⟨worldSection "coverage.".toList, worldSection_wellFormed rfl {}, rfl⟩

end AowisMap.Server
