/-
Which tiles a coverage permits, for every coverage that the configuration
can put together.

# The parts in force

At a zoom a profile names parts of the globe: all of it, rectangles and
polygons (`Names`). `permitsTile_iff`: a tile is permitted if and only if
it meets one of them, whatever turn of the globe its column is on.

# Places

Meeting is about edges and tolerances. `permitsTile_spec` says what that
is in places: a tile with a place of a part is permitted, but for a polygon
that lies within the tile and is overlooked; and a tile that is permitted
has a place of a part, or is next to one. The polygons are those of the
collections that were read: their envelopes contain them
(`coverageInv_loaded`).
-/
import AowisMap.Lib.Run
import AowisMap.Server.Proofs.CoveragePolygons
import AowisMap.Server.Proofs.CoverageSections
import AowisMap.Server.TileCoverage

namespace AowisMap.Server

open Lib Lib.Segments Catalogue

-- ================================================================= parts

/-- A part of the globe that a region consists of. -/
inductive RegionPart
  | globe
  | rectangle (b : Bounds)
  | polygon (polygon : Polygon)

namespace RegionPart

/-- The code's test on an area. -/
def meets : RegionPart → Bounds → Bool
  | globe, _ => true
  | rectangle b, area => intersects b area
  | polygon p, area => intersectsPolygon p area

/-- A place of the part; that of a polygon is in its exterior and in no
hole. -/
def Has : RegionPart → Rat → Rat → Prop
  | globe, _, _ => True
  | rectangle b, lon, lat => b.box.Has lon lat
  | polygon p, lon, lat => p.has lon lat = true

/-- A polygon within an area, no vertex of which is a place of it. -/
def Overlooked : RegionPart → Bounds → Prop
  | polygon p, area => ∃ exterior holes, p.rings = exterior :: holes ∧
      ∀ q ∈ exterior, area.box.Inside q.lon q.lat ∧
        p.has q.lon q.lat = false
  | _, _ => False

/-- An area with a place of the part, or a ten-thousandth of a degree from
a side of it. -/
def Near (part : RegionPart) (area : Bounds) : Prop :=
  (∃ lon lat, area.box.Has lon lat ∧ part.Has lon lat) ∨
    ∃ p, part = polygon p ∧ ∃ ring ∈ p.rings, ∃ side ∈ sides ring,
      ∃ lon lat lon' lat', Point.On side.1 side.2 lon lat ∧
        area.box.Has lon' lat' ∧
        |lon - lon'| ≤ 1 / 10 ^ 4 ∧ |lat - lat'| ≤ 1 / 10 ^ 4

/-- What the parts of a coverage are: rectangles that are not inside out,
and polygons of closed rings within their envelope. -/
def Drawn : RegionPart → Prop
  | globe => True
  | rectangle b => b.west ≤ b.east ∧ b.south ≤ b.north
  | polygon p => p.Enveloped ∧ ∀ ring ∈ p.rings, ring.head? = ring.getLast?

variable {part : RegionPart} {area : Bounds} {lon lat : Rat}

/-- An area with a place of a part meets it, unless it is overlooked. -/
theorem meets_of_has (hdrawn : part.Drawn) (harea : area.box.Has lon lat)
    (hplace : part.Has lon lat) :
    part.meets area = true ∨ part.Overlooked area := by
  cases part with
  | globe => exact Or.inl rfl
  | rectangle b =>
      left
      show intersects b area = true
      unfold intersects
      simp only [Bool.and_eq_true, decide_eq_true_eq]
      exact ⟨⟨⟨hplace.west_le.trans harea.le_east,
        harea.west_le.trans hplace.le_east⟩,
        hplace.south_le.trans harea.le_north⟩,
        harea.south_le.trans hplace.le_north⟩
  | polygon p =>
      have hplace : p.has lon lat = true := hplace
      cases hrings : p.rings with
      | nil =>
          unfold Polygon.has at hplace
          rw [hrings] at hplace
          cases hplace
      | cons exterior holes =>
          have henvelope : ∀ q ∈ exterior, p.envelope.Contains q := by
            intro q hq
            apply hdrawn.1 exterior _ q hq
            rw [hrings]
            exact List.mem_cons_self
          rcases found_or_overlooked hrings hdrawn.2 henvelope harea hplace
            with hmeets | ⟨hinside, -⟩
          · exact Or.inl hmeets
          · exact Or.inr ⟨exterior, holes, hrings, hinside⟩

/-- An area that meets a part is near it. -/
theorem near_of_meets (hdrawn : part.Drawn) (hwest : area.west ≤ area.east)
    (hsouth : area.south ≤ area.north) (h : part.meets area = true) :
    part.Near area := by
  cases part with
  | globe =>
      refine Or.inl ⟨area.west, area.south, ⟨le_refl _, hwest, le_refl _,
        hsouth⟩, trivial⟩
  | rectangle b =>
      have h : intersects b area = true := h
      unfold intersects at h
      simp only [Bool.and_eq_true, decide_eq_true_eq] at h
      obtain ⟨⟨⟨hbe, hae⟩, hbn⟩, han⟩ := h
      -- the south-western corner of what they share
      refine Or.inl ⟨max b.west area.west, max b.south area.south, ?_, ?_⟩
      · exact ⟨le_max_right _ _, max_le hbe hwest, le_max_right _ _,
          max_le hbn hsouth⟩
      · exact ⟨le_max_left _ _, max_le hdrawn.1 hae, le_max_left _ _,
          max_le hdrawn.2 han⟩
  | polygon p =>
      rcases near_of_intersectsPolygon hwest hsouth h with
        ⟨lon, lat, harea, hplace⟩ | ⟨ring, hring, side, hside, lon, lat, lon',
          lat', hon, harea, hlon, hlat⟩
      · exact Or.inl ⟨lon, lat, harea, hplace⟩
      · exact Or.inr ⟨p, rfl, ring, hring, side, hside, lon, lat, lon', lat',
          hon, harea, hlon.trans tolerance_small, hlat.trans tolerance_small⟩

end RegionPart

namespace DownloadCoverage

/-- The parts of a region. -/
def parts (coverage : DownloadCoverage) (id : Text) : List RegionPart :=
  (if id = world then [.globe] else [])
    ++ (coverage.region id).rectangles.map .rectangle
    ++ (coverage.region id).polygons.map .polygon

/-- A profile names a part for a zoom. -/
def Names (coverage : DownloadCoverage) (name : Text) (zoom : Int)
    (part : RegionPart) : Prop :=
  ∃ profile, coverage.profiles.lookup name = some profile ∧
    ∃ tier ∈ profile.tiers, tier.minimumZoom ≤ zoom ∧
      zoom ≤ tier.maximumZoom ∧
      ∃ id ∈ tier.regions, part ∈ coverage.parts id

variable {coverage : DownloadCoverage} {name id : Text} {area : Bounds}
  {zoom : Int}

/-- A part of a region is the globe, for the world, or was drawn. -/
theorem mem_parts {part : RegionPart} : part ∈ coverage.parts id ↔
    (id = world ∧ part = .globe) ∨
      (∃ b ∈ (coverage.region id).rectangles, .rectangle b = part) ∨
      ∃ p ∈ (coverage.region id).polygons, .polygon p = part := by
  unfold parts
  rw [List.mem_append, List.mem_append, List.mem_map, List.mem_map, or_assoc]
  by_cases hworld : id = world
  · rw [if_pos hworld, List.mem_singleton, eq_true hworld, true_and]
  · rw [if_neg hworld, eq_false hworld, false_and]
    simp only [List.not_mem_nil]

/-- A region is permitted where one of its parts meets the area. -/
theorem meets_iff_parts : Meets coverage id area ↔
    ∃ part ∈ coverage.parts id, part.meets area = true := by
  constructor
  · rintro (hworld | ⟨region, hregion, hdrawn⟩)
    · exact ⟨.globe, mem_parts.2 (Or.inl ⟨hworld, rfl⟩), rfl⟩
    · have hsame : coverage.region id = region := by
        rw [DownloadCoverage.region, hregion, Option.getD_some]
      rcases hdrawn with ⟨b, hb, hmeets⟩ | ⟨p, hp, hmeets⟩
      · exact ⟨.rectangle b,
          mem_parts.2 (Or.inr (Or.inl ⟨b, hsame ▸ hb, rfl⟩)), hmeets⟩
      · exact ⟨.polygon p,
          mem_parts.2 (Or.inr (Or.inr ⟨p, hsame ▸ hp, rfl⟩)), hmeets⟩
  · rintro ⟨part, hpart, hmeets⟩
    rcases mem_parts.1 hpart with ⟨hworld, -⟩ | hdrawn
    · exact Or.inl hworld
    · right
      cases hregion : coverage.regions.lookup id with
      | none =>
          rw [DownloadCoverage.region, hregion, Option.getD_none] at hdrawn
          rcases hdrawn with ⟨b, hb, -⟩ | ⟨p, hp, -⟩
          · cases hb
          · cases hp
      | some region =>
          rw [DownloadCoverage.region, hregion, Option.getD_some] at hdrawn
          rcases hdrawn with ⟨b, hb, rfl⟩ | ⟨p, hp, rfl⟩
          · exact ⟨region, rfl, Or.inl ⟨b, hb, hmeets⟩⟩
          · exact ⟨region, rfl, Or.inr ⟨p, hp, hmeets⟩⟩

theorem permitsArea_iff (hname : name ≠ []) (hzoom : 0 ≤ zoom)
    (hzoom' : zoom ≤ 30) : coverage.permitsArea name zoom area = true ↔
      ∃ part, coverage.Names name zoom part ∧ part.meets area = true := by
  unfold permitsArea Names
  rw [if_neg hname, if_neg (by omega)]
  cases hprofile : coverage.profiles.lookup name with
  | none =>
      constructor
      · intro h
        cases h
      · intro h
        obtain ⟨part, ⟨profile, hnone, -⟩, -⟩ := h
        cases hnone
  | some profile =>
      simp only [List.any_eq_true, Bool.and_eq_true, decide_eq_true_eq,
        permitsRegion_iff, meets_iff_parts]
      constructor
      · intro h
        obtain ⟨tier, htier, ⟨hlow, hhigh⟩, id, hid, part, hpart, hmeets⟩ := h
        exact ⟨part, ⟨profile, rfl, tier, htier, hlow, hhigh, id, hid, hpart⟩,
          hmeets⟩
      · intro h
        obtain ⟨part, ⟨profile', hsome, tier, htier, hlow, hhigh, id, hid,
          hpart⟩, hmeets⟩ := h
        cases hsome
        exact ⟨tier, htier, ⟨hlow, hhigh⟩, id, hid, part, hpart, hmeets⟩

/-- The column of a tile is wrapped, whatever its sign. -/
theorem wrapped_eq (x : Int) {count : Int} (hcount : 0 < count) :
    (x.tmod count + count).tmod count = x % count := by
  have hlow : 0 ≤ x.tmod count + count := by
    have hbound := Int.lt_tmod_of_pos x hcount
    omega
  rw [Int.tmod_eq_emod_of_nonneg hlow, Int.add_emod_right, Int.tmod_def,
    Int.sub_mul_emod_self_left]

/-- **A tile is permitted if and only if it meets a part in force.** -/
theorem permitsTile_iff {latitude : Int → Int → Rat} {y : Int}
    (hname : name ≠ []) (hzoom : 0 ≤ zoom) (hzoom' : zoom ≤ 30)
    (hrow : 0 ≤ y) (hrow' : y < Maps.tileCount zoom) (x : Int) :
    coverage.permitsTile latitude name zoom x y = true ↔
      ∃ part, coverage.Names name zoom part ∧ part.meets
        (xyzBounds latitude zoom (x % Maps.tileCount zoom) y) = true := by
  have hwrapped := wrapped_eq x (Maps.tileCount_pos zoom)
  unfold permitsTile
  rw [if_neg hname]
  cases hprofile : coverage.profiles.lookup name with
  | none =>
      have hunknown : zoom < 0 ∨ 30 < zoom ∨
          (none : Option Profile).isNone = true := Or.inr (Or.inr rfl)
      rw [if_pos hunknown]
      constructor
      · intro h
        cases h
      · intro h
        obtain ⟨part, ⟨profile, hsome, -⟩, -⟩ := h
        rw [hprofile] at hsome
        cases hsome
  | some profile =>
      have hknown : ¬ (zoom < 0 ∨ 30 < zoom ∨
          (some profile).isNone = true) := by
        intro h
        rcases h with h | h | h
        · omega
        · omega
        · cases h
      dsimp only
      rw [if_neg hknown, if_neg (by omega), hwrapped,
        permitsArea_iff hname hzoom hzoom']

end DownloadCoverage

-- =============================================================== loading

/-- The linear rings of GeoJSON are closed: what is stored of them ends
where it begins. -/
def CoverageAction.ringsClosed : CoverageAction → Prop
  | .regions features => ∀ id, ∀ source ∈ namedPolygons features id,
      ∀ ring ∈ longRings source, ring.head? = ring.getLast?
  | _ => True

/-- The parts of the regions are drawn. -/
structure CoverageInv (coverage : DownloadCoverage) : Prop where
  rectangles : ∀ id, ∀ b ∈ (coverage.region id).rectangles,
    b.west ≤ b.east ∧ b.south ≤ b.north
  polygons : ∀ id, ∀ p ∈ (coverage.region id).polygons,
    p.Enveloped ∧ ∀ ring ∈ p.rings, ring.head? = ring.getLast?

variable {coverage coverage' : DownloadCoverage}

theorem CoverageInv.drawn (h : CoverageInv coverage) {id : Text}
    {part : RegionPart} (hpart : part ∈ coverage.parts id) :
    part.Drawn := by
  rcases DownloadCoverage.mem_parts.1 hpart with
    ⟨-, rfl⟩ | ⟨b, hb, rfl⟩ | ⟨p, hp, rfl⟩
  · trivial
  · exact h.rectangles id b hb
  · exact h.polygons id p hp

theorem CoverageInv.namedDrawn (h : CoverageInv coverage) {name : Text}
    {zoom : Int} {part : RegionPart}
    (hnames : coverage.Names name zoom part) : part.Drawn := by
  obtain ⟨profile, -, tier, -, -, -, id, -, hpart⟩ := hnames
  exact h.drawn hpart

theorem coverageInv_empty : CoverageInv {} := by
  constructor
  · intro id b hb
    cases hb
  · intro id p hp
    cases hp

theorem rectangles_setRegion (coverage : DownloadCoverage) (id other : Text)
    (region : Region)
    (h : region.rectangles = (coverage.region id).rectangles) :
    ((coverage.setRegion id region).region other).rectangles
      = (coverage.region other).rectangles := by
  rw [region_setRegion]
  split
  · rename_i hsame
    rw [hsame, h]
  · rfl

/-- Polygons add no rectangles. -/
theorem addPolygons_rectangles (id other : Text) (values : List JsonValue)
    (coverage : DownloadCoverage) :
    ((addPolygons id values coverage).coverage.region other).rectangles
      = (coverage.region other).rectangles := by
  induction values generalizing coverage with
  | nil => rfl
  | cons value values ih =>
      unfold addPolygons
      split
      · rfl
      · rw [ih]
        split
        · rfl
        · exact rectangles_setRegion coverage id other _ rfl

theorem addFeatures_rectangles (other : Text) (features : List JsonValue)
    (coverage : DownloadCoverage) :
    ((addFeatures features coverage).coverage.region other).rectangles
      = (coverage.region other).rectangles := by
  induction features generalizing coverage with
  | nil => rfl
  | cons feature features ih =>
      have hfeature : ∀ polygons, ((addPolygons (featureId feature) polygons
          (coverage.setRegion (featureId feature)
            (coverage.region (featureId feature)))).coverage.region
              other).rectangles = (coverage.region other).rectangles := by
        intro polygons
        rw [addPolygons_rectangles]
        exact rectangles_setRegion coverage _ other _ rfl
      unfold addFeatures
      split
      · exact ih coverage
      · split
        · exact ih coverage
        · dsimp only
          split
          · exact hfeature _
          · rw [ih]
            exact hfeature _

/-- A polygon that was added is stored for one of the sources. -/
theorem source_of_stored {sources : List JsonValue} {added : List Polygon}
    (h : List.Forall₂ StoredFor sources added) {p : Polygon}
    (hp : p ∈ added) : ∃ source ∈ sources, StoredFor source p := by
  induction h with
  | nil => cases hp
  | cons hstored _ ih =>
      rcases List.mem_cons.1 hp with rfl | hp
      · exact ⟨_, List.mem_cons_self, hstored⟩
      · obtain ⟨source, hsource, hfor⟩ := ih hp
        exact ⟨source, List.mem_cons_of_mem _ hsource, hfor⟩

/-- What was not refused was answered. -/
theorem ok_of_toOption {ε α : Type} {r : Except ε α} {a : α}
    (h : r.toOption = some a) : r = .ok a := by
  cases r with
  | error e => cases h
  | ok b =>
      cases h
      rfl

/-- A rectangle that is added is not inside out. -/
theorem CoverageInv.addRectangle (h : CoverageInv coverage) {name : Text}
    {b : Bounds} (hadded : coverage.addRectangle name b = .ok coverage') :
    CoverageInv coverage' := by
  unfold DownloadCoverage.addRectangle at hadded
  split at hadded
  · cases hadded
  · rename_i hvalid
    cases hadded
    rw [not_or, not_or, Bool.not_eq_false] at hvalid
    have hbounds := hvalid.2.2
    unfold validBounds at hbounds
    simp only [Bool.and_eq_true, decide_eq_true_eq] at hbounds
    constructor
    · intro id b' hb'
      rw [region_setRegion] at hb'
      split at hb'
      · rcases List.mem_append.1 hb' with hb' | hb'
        · exact h.rectangles name b' hb'
        · rw [List.mem_singleton.1 hb']
          exact ⟨hbounds.1.1.1.2, hbounds.2⟩
      · exact h.rectangles id b' hb'
    · intro id p hp
      rw [region_setRegion] at hp
      split at hp
      · exact h.polygons name p hp
      · exact h.polygons id p hp

/-- A polygon that is added is one of a source with closed rings, within
the envelope that was computed for it. -/
theorem CoverageInv.addFeatures (h : CoverageInv coverage)
    {features : List JsonValue}
    (hclosed : (CoverageAction.regions features).ringsClosed)
    (hloaded : (addFeatures features coverage).error = none) :
    CoverageInv (addFeatures features coverage).coverage := by
  constructor
  · intro id b hb
    rw [addFeatures_rectangles] at hb
    exact h.rectangles id b hb
  · intro id p hp
    obtain ⟨added, hadded, hstored⟩ := addFeatures_ok hloaded id
    rw [hadded] at hp
    rcases List.mem_append.1 hp with hp | hp
    · exact h.polygons id p hp
    · obtain ⟨source, hsource, hrings, henveloped⟩ :=
        source_of_stored hstored hp
      refine ⟨henveloped, ?_⟩
      intro ring hring
      rw [hrings] at hring
      exact hclosed id source (List.mem_filter.1 hsource).1 ring hring

/-- Profiles say where the regions are used, not what they are. -/
theorem CoverageInv.addProfile (h : CoverageInv coverage) {name : Text}
    {profile : Profile}
    (hadded : coverage.addProfile name profile = .ok coverage') :
    CoverageInv coverage' := by
  unfold DownloadCoverage.addProfile at hadded
  split at hadded
  · cases hadded
  · split at hadded
    · cases hadded
    · split at hadded
      · cases hadded
        exact ⟨h.rectangles, h.polygons⟩
      · cases hadded

/-- Every step of loading keeps the parts drawn. -/
theorem coverageInv_step {a : CoverageAction} (h : CoverageInv coverage)
    (hclosed : a.ringsClosed)
    (hstep : coverageNext a coverage = some coverage') :
    CoverageInv coverage' := by
  cases a with
  | rectangle name b => exact h.addRectangle (ok_of_toOption hstep)
  | regions features =>
      unfold coverageNext at hstep
      dsimp only at hstep
      split at hstep
      · rename_i hloaded
        cases hstep
        exact h.addFeatures hclosed hloaded
      · cases hstep
  | profile name profile =>
      exact h.addProfile (ok_of_toOption hstep)

/-- Every coverage that can be loaded consists of drawn parts. -/
theorem coverageInv_loaded
    (hrun : Run coverageNext (fun a _ => a.ringsClosed) {} coverage) :
    CoverageInv coverage := by
  apply hrun.invariant coverageInv_empty
  intro a c c' h hclosed hstep
  exact coverageInv_step h hclosed hstep

-- ================================================================= tiles

/-- What a coverage answers for the tiles of a profile. -/
structure TilePolicy (latitude : Int → Int → Rat)
    (coverage : DownloadCoverage) (name : Text) : Prop where
  /-- A tile with a place of a part in force is permitted. -/
  covered : ∀ {zoom x y : Int} {lon lat : Rat} {part : RegionPart},
    0 ≤ zoom → zoom ≤ 30 → 0 ≤ y → y < Maps.tileCount zoom →
    let tile := xyzBounds latitude zoom (x % Maps.tileCount zoom) y
    tile.box.Has lon lat → coverage.Names name zoom part →
    part.Has lon lat →
    coverage.permitsTile latitude name zoom x y = true ∨
      part.Overlooked tile
  /-- A permitted tile is near a part in force. -/
  near : ∀ {zoom x y : Int},
    coverage.permitsTile latitude name zoom x y = true →
    0 ≤ zoom ∧ zoom ≤ 30 ∧ 0 ≤ y ∧ y < Maps.tileCount zoom ∧
    ∃ part, coverage.Names name zoom part ∧
      part.Near (xyzBounds latitude zoom (x % Maps.tileCount zoom) y)
  /-- Whole turns of the globe do not matter. -/
  turns : ∀ zoom x y turns : Int,
    coverage.permitsTile latitude name zoom
        (x + turns * Maps.tileCount zoom) y
      = coverage.permitsTile latitude name zoom x y

/-- Nothing is permitted off the map. -/
theorem tile_of_permitted {latitude : Int → Int → Rat} {name : Text}
    {zoom x y : Int} (hname : name ≠ [])
    (h : coverage.permitsTile latitude name zoom x y = true) :
    0 ≤ zoom ∧ zoom ≤ 30 ∧ 0 ≤ y ∧ y < Maps.tileCount zoom := by
  unfold DownloadCoverage.permitsTile at h
  rw [if_neg hname] at h
  dsimp only at h
  split at h
  · cases h
  · rename_i hknown
    split at h
    · cases h
    · rename_i hrow
      obtain ⟨hlow, hhigh⟩ := not_or.1 hknown
      obtain ⟨hhigh, -⟩ := not_or.1 hhigh
      obtain ⟨hnorth, hsouth⟩ := not_or.1 hrow
      exact ⟨not_lt.1 hlow, not_lt.1 hhigh, not_lt.1 hnorth, not_le.1 hsouth⟩

/-- The western border of a tile is west of the eastern one. -/
theorem xyzBounds_west_le (latitude : Int → Int → Rat) (zoom x y : Int) :
    (xyzBounds latitude zoom x y).west
      ≤ (xyzBounds latitude zoom x y).east := by
  have hcount : (0 : Rat) < Maps.tileCount zoom :=
    Int.cast_pos.2 (Maps.tileCount_pos zoom)
  have hstep : (x : Rat) / Maps.tileCount zoom
      ≤ (x + 1) / Maps.tileCount zoom :=
    div_le_div_of_nonneg_right (by linarith) hcount.le
  show (x : Rat) / Maps.tileCount zoom * 360 - 180
    ≤ (x + 1) / Maps.tileCount zoom * 360 - 180
  linarith

/-- A permitted tile is near a part in force. -/
theorem near_of_permitted {latitude : Int → Int → Rat} {name : Text}
    {zoom x y : Int} (hinv : CoverageInv coverage) (hname : name ≠ [])
    (hrows : ∀ zoom row, latitude zoom (row + 1) ≤ latitude zoom row)
    (h : coverage.permitsTile latitude name zoom x y = true) :
    ∃ part, coverage.Names name zoom part ∧
      part.Near (xyzBounds latitude zoom (x % Maps.tileCount zoom) y) := by
  obtain ⟨hzoom, hzoom', hrow, hrow'⟩ := tile_of_permitted hname h
  rw [DownloadCoverage.permitsTile_iff hname hzoom hzoom' hrow hrow'] at h
  obtain ⟨part, hnames, hmeets⟩ := h
  refine ⟨part, hnames, ?_⟩
  apply RegionPart.near_of_meets (hinv.namedDrawn hnames)
    (xyzBounds_west_le latitude zoom _ y) _ hmeets
  exact hrows zoom y

/-- **What a loaded coverage permits.** For every coverage that rectangles,
collections with closed rings and profiles give, every profile and every
tile: a tile that has a place of a part in force is permitted, unless the
part is a polygon within the tile that is overlooked; a permitted tile has
a place of a part in force or is next to one; and columns count modulo
whole turns. -/
theorem permitsTile_spec {latitude : Int → Int → Rat} {name : Text}
    (hrun : Run coverageNext (fun a _ => a.ringsClosed) {} coverage)
    (hname : name ≠ [])
    (hrows : ∀ zoom row, latitude zoom (row + 1) ≤ latitude zoom row) :
    TilePolicy latitude coverage name := by
  have hinv := coverageInv_loaded hrun
  constructor
  · intro zoom x y lon lat part hzoom hzoom' hrow hrow' tile htile hnames
      hplace
    rcases RegionPart.meets_of_has (hinv.namedDrawn hnames) htile hplace with
      hmeets | hoverlooked
    · left
      rw [DownloadCoverage.permitsTile_iff hname hzoom hzoom' hrow hrow']
      exact ⟨part, hnames, hmeets⟩
    · exact Or.inr hoverlooked
  · intro zoom x y h
    obtain ⟨hzoom, hzoom', hrow, hrow'⟩ := tile_of_permitted hname h
    exact ⟨hzoom, hzoom', hrow, hrow',
      near_of_permitted hinv hname hrows h⟩
  · intro zoom x y turns
    have hcount := Maps.tileCount_pos zoom
    have hsame : (x + turns * Maps.tileCount zoom) % Maps.tileCount zoom
        = x % Maps.tileCount zoom := Int.add_mul_emod_self_right _ _ _
    unfold DownloadCoverage.permitsTile
    dsimp only
    rw [DownloadCoverage.wrapped_eq _ hcount,
      DownloadCoverage.wrapped_eq _ hcount, hsame]

/-- A square with a hole is loaded, and a profile that names it. -/
def coastActions : List CoverageAction :=
  [ .regions [polygonFeature [squareRing 0 4, squareRing 1 2]],
    .profile "coast".toList ⟨[⟨0, 30, ["XY".toList]⟩]⟩ ]

theorem coastActions_closed : ∀ a ∈ coastActions, a.ringsClosed := by
  intro a ha
  simp only [coastActions, List.mem_cons, List.not_mem_nil, or_false] at ha
  rcases ha with rfl | rfl
  · intro id source hsource ring hring
    rw [namedPolygons_polygonFeature hsource] at hring
    have hrings : ∀ ring ∈ longRings
        (.array [squareRing 0 4, squareRing 1 2]),
        ring.head? = ring.getLast? := by
      decide +kernel
    exact hrings ring hring
  · trivial

/-- A tile of the square, one turn to the east. The rows of the Mercator
map cannot be computed with; here they are all one degree high. -/
theorem permitsTile_spec_coast :
    ∃ coverage,
      Run coverageNext (fun a _ => a.ringsClosed) {} coverage ∧
      coverage.permitsTile (fun _ row => 85 - row) "coast".toList 9 768 82
        = true ∧
      TilePolicy (fun _ row => 85 - row) coverage "coast".toList := by
  have hloaded : (runActions coverageNext coastActions {}).map
      (fun coverage => coverage.permitsTile (fun _ row => 85 - row)
        "coast".toList 9 768 82) = some true := by
    decide +kernel
  obtain ⟨coverage, hcoverage, hpermitted⟩ :=
    Option.map_eq_some_iff.1 hloaded
  have hrun : Run coverageNext (fun a _ => a.ringsClosed) {} coverage :=
    run_of_admitted hcoverage fun a ha _ => coastActions_closed a ha
  refine ⟨coverage, hrun, hpermitted, ?_⟩
  apply permitsTile_spec hrun (by decide)
  intro zoom row
  push_cast
  linarith

end AowisMap.Server
