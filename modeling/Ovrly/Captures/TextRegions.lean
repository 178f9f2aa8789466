import Mathlib.Data.List.MinMax
import Mathlib.Tactic
import Ovrly.OptionList

/-!
Likely text in a frame (`TextRegions` of `capture/CaptureText.kt` of the Android app): every region
can be cropped, and no row of a text band is lost.
-/

namespace Ovrly.Captures.TextRegions

open OptionList

def BOX_SCALE : Int := 10000
def EDGE_STEP : Int := 40
def ROW_EDGE_PERMILLE : Nat := 30
def ROW_GAP : Int := 4
def MIN_BAND_HEIGHT : Int := 6
def PADDING : Int := 8
def MIN_EDGE : Int := 32
def MAX_REGIONS : Nat := 8
def FULL_FRAME_PERCENT : Int := 70
def PERCENT : Int := 100
def PERMILLE : Nat := 1000

/-- A pixel rectangle `[left, right)` by `[top, bottom)`. -/
structure Region where
  left : Int
  top : Int
  right : Int
  bottom : Int
  deriving DecidableEq, Repr

/-- A range of rows, its last one included. -/
structure Band where
  first : Nat
  last : Nat
  deriving DecidableEq, Repr

def Band.height (band : Band) : Int := band.last - band.first + 1

/-- `abs(gray[index + 1] - gray[index]) >= EDGE_STEP`; `none` outside the array. -/
def sharpStep (gray : List Int32) (index : Nat) : Option Bool := do
  let next ← gray[index + 1]?
  let pixel ← gray[index]?
  return EDGE_STEP ≤ (next - pixel).abs.toInt

def sharpColumns (gray : List Int32) (width y : Nat) : Option (List Nat) :=
  (List.range (width - 1)).filterM fun x => sharpStep gray (y * width + x)

def edgeCount (gray : List Int32) (width y : Nat) : Option Nat :=
  (sharpColumns gray width y).map List.length

def isTexty (gray : List Int32) (width y : Nat) : Option Bool :=
  (edgeCount gray width y).map fun count => width * ROW_EDGE_PERMILLE ≤ count * PERMILLE

def addRow (bands : List Band) (y : Nat) : List Band :=
  match bands.getLast? with
  | some last =>
      if (y : Int) - last.last ≤ ROW_GAP + 1 then bands.dropLast ++ [⟨last.first, y⟩]
      else bands ++ [⟨y, y⟩]
  | none => bands ++ [⟨y, y⟩]

/-- `bands`, of the rows that are texty. -/
def bands (rows : List Nat) : List Band :=
  (rows.foldl addRow []).filter fun band => MIN_BAND_HEIGHT ≤ band.height

/-- `none` where the bounds are out of order. -/
def coerceIn (value low high : Int) : Option Int :=
  if high < low then none else some (max low (min value high))

def columns (gray : List Int32) (width height : Nat) (band : Band) : Option Region := do
  let rows ← (List.range' band.first (band.last + 1 - band.first)).mapM (sharpColumns gray width)
  let edges := rows.flatten
  let least ← edges.min?
  let greatest ← edges.max?
  return {
    left := max (least - PADDING) 0
    top := max (band.first - PADDING) 0
    right := min (greatest + 2 + PADDING) width
    bottom := min (band.last + 1 + PADDING) height }

def grow (start last size : Int) : Option (Int × Int) :=
  let length := min MIN_EDGE size
  if length ≤ last - start then some (start, last)
  else do
    let first ← coerceIn (start - (length - (last - start)).tdiv 2) 0 (size - length)
    return (first, first + length)

def atLeast (region : Region) (width height : Nat) : Option Region := do
  let (left, right) ← grow region.left region.right width
  let (top, bottom) ← grow region.top region.bottom height
  return { left, top, right, bottom }

def textyRows (gray : List Int32) (width height : Nat) : Option (List Nat) :=
  (List.range height).filterM (isTexty gray width)

/-- `none` where the code throws. -/
def find (gray : List Int32) (width height : Nat) : Option (List Region) :=
  if gray.length = width * height ∧ 1 < width ∧ 0 < height then do
    let bands := bands (← textyRows gray width height)
    let covered := (bands.map Band.height).sum
    if bands = [] then return []
    else if height * FULL_FRAME_PERCENT ≤ covered * PERCENT ∨ MAX_REGIONS < bands.length then
      return [⟨0, 0, width, height⟩]
    else bands.mapM fun band => do
      atLeast (← columns gray width height band) width height
  else none

def scale (value size : Int) : Option Int := do
  let inside ← coerceIn value 0 size
  if size = 0 then none else return (inside * BOX_SCALE).tdiv size

def normalize (region : Region) (width height : Nat) : Option (List Int) :=
  [(region.left, (width : Int)), (region.top, (height : Int)), (region.right, (width : Int)),
    (region.bottom, (height : Int))].mapM fun side => scale side.1 side.2

section Steps

variable {gray : List Int32} {width height : Nat}

theorem pixel_bound {y x : Nat} (row : y < height) (column : x + 1 < width) :
    y * width + x + 1 < width * height := by
  have below : (y + 1) * width ≤ height * width := Nat.mul_le_mul_right width row
  have comm : height * width = width * height := Nat.mul_comm _ _
  rw [Nat.add_mul, Nat.one_mul] at below
  omega

theorem sharpStep_isSome (sized : gray.length = width * height) {y x : Nat} (row : y < height)
    (column : x + 1 < width) : (sharpStep gray (y * width + x)).isSome := by
  have bound := pixel_bound row column
  rw [← sized] at bound
  simp [sharpStep, List.getElem?_eq_getElem bound,
    List.getElem?_eq_getElem (Nat.lt_of_succ_lt bound)]

theorem sharpColumns_some (sized : gray.length = width * height) {y : Nat} (row : y < height) :
    ∃ columns, sharpColumns gray width y = some columns ∧ ∀ x ∈ columns, x + 1 < width := by
  have defined : ∀ x ∈ List.range (width - 1), (sharpStep gray (y * width + x)).isSome := by
    intro x member
    have bound := List.mem_range.mp member
    exact sharpStep_isSome sized row (by omega)
  refine ⟨_, filterM_some defined, ?_⟩
  intro x member
  have bound := List.mem_range.mp (List.mem_of_mem_filter member)
  omega

theorem isTexty_isSome (sized : gray.length = width * height) {y : Nat} (row : y < height) :
    (isTexty gray width y).isSome := by
  obtain ⟨columns, defined, -⟩ := sharpColumns_some sized row
  simp [isTexty, edgeCount, defined]

theorem columns_of_texty {y : Nat} (wide : 1 < width) (texty : isTexty gray width y = some true)
    {columns : List Nat} (defined : sharpColumns gray width y = some columns) : columns ≠ [] := by
  rintro rfl
  simp only [isTexty, edgeCount, defined, Option.map_some, List.length_nil, Nat.zero_mul,
    Option.some.injEq, decide_eq_true_eq, ROW_EDGE_PERMILLE] at texty
  omega

end Steps

section Bands

structure Band.Between (text : Nat → Prop) (band : Band) : Prop where
  first : text band.first
  last : text band.last
  ordered : band.first ≤ band.last

theorem mem_addRow {bands : List Band} {y : Nat} {band : Band} (member : band ∈ addRow bands y) :
    band ∈ bands ∨ band = ⟨y, y⟩ ∨ ∃ last ∈ bands, band = ⟨last.first, y⟩ := by
  unfold addRow at member
  split at member
  · rename_i last found
    split at member
    · rcases List.mem_append.mp member with old | joined
      · exact .inl (List.dropLast_subset bands old)
      · exact .inr (.inr ⟨last, List.mem_of_getLast? found, List.mem_singleton.mp joined⟩)
    · rcases List.mem_append.mp member with old | begun
      · exact .inl old
      · exact .inr (.inl (List.mem_singleton.mp begun))
  · rcases List.mem_append.mp member with old | begun
    · exact .inl old
    · exact .inr (.inl (List.mem_singleton.mp begun))

theorem between_foldl {text : Nat → Prop} {rows : List Nat} {bands : List Band}
    (ordered : rows.Pairwise (· < ·)) (texty : ∀ y ∈ rows, text y)
    (begun : ∀ band ∈ bands, band.Between text ∧ ∀ y ∈ rows, band.last < y) :
    ∀ band ∈ rows.foldl addRow bands, band.Between text := by
  induction rows generalizing bands with
  | nil => exact fun band member => (begun band member).1
  | cons y rest ih =>
      obtain ⟨below, tail⟩ := List.pairwise_cons.mp ordered
      have here := texty y List.mem_cons_self
      apply ih tail fun other member => texty other (List.mem_cons_of_mem _ member)
      intro band member
      rcases mem_addRow member with old | rfl | ⟨last, old, rfl⟩
      · exact ⟨(begun band old).1,
          fun other later => (begun band old).2 other (List.mem_cons_of_mem _ later)⟩
      · exact ⟨⟨here, here, le_refl y⟩, below⟩
      · obtain ⟨good, before⟩ := begun last old
        have early := before y List.mem_cons_self
        exact ⟨⟨good.first, here, le_trans good.ordered early.le⟩, below⟩

theorem between_bands {text : Nat → Prop} {rows : List Nat} (ordered : rows.Pairwise (· < ·))
    (texty : ∀ y ∈ rows, text y) : ∀ band ∈ bands rows, band.Between text :=
  fun band member => between_foldl ordered texty (by simp) band (List.mem_of_mem_filter member)

end Bands

section Growing

theorem grow_some {start last size : Int} (low : 0 ≤ start) (high : last ≤ size) :
    ∃ first after, grow start last size = some (first, after) ∧ 0 ≤ first ∧ first ≤ start ∧
      last ≤ after ∧ after ≤ size ∧ min MIN_EDGE size ≤ after - first := by
  have edge : 0 < MIN_EDGE := by decide
  have length : min MIN_EDGE size ≤ size := min_le_right _ _
  simp only [grow]
  by_cases wide : min MIN_EDGE size ≤ last - start
  · rw [if_pos wide]
    exact ⟨start, last, rfl, low, le_refl _, le_refl _, high, wide⟩
  · rw [if_neg wide]
    have room : ¬size - min MIN_EDGE size < 0 := by omega
    rw [coerceIn, if_neg room]
    refine ⟨_, _, rfl, ?_, ?_, ?_, ?_, ?_⟩
    · omega
    · rw [Int.tdiv_eq_ediv_of_nonneg (by omega)]
      omega
    · rw [Int.tdiv_eq_ediv_of_nonneg (by omega)]
      omega
    · omega
    · omega

/-- A region can be cropped from the frame and is large enough to be read. -/
structure Region.Fits (width height : Nat) (region : Region) : Prop where
  left : 0 ≤ region.left
  wide : region.left < region.right
  right : region.right ≤ width
  top : 0 ≤ region.top
  tall : region.top < region.bottom
  bottom : region.bottom ≤ height
  minWidth : min MIN_EDGE width ≤ region.right - region.left
  minHeight : min MIN_EDGE height ≤ region.bottom - region.top

theorem atLeast_some {region : Region} {width height : Nat} (left : 0 ≤ region.left)
    (wide : region.left < region.right) (right : region.right ≤ width) (top : 0 ≤ region.top)
    (tall : region.top < region.bottom) (bottom : region.bottom ≤ height) :
    ∃ grown, atLeast region width height = some grown ∧ grown.Fits width height ∧
      grown.left ≤ region.left ∧ region.right ≤ grown.right ∧ grown.top ≤ region.top ∧
      region.bottom ≤ grown.bottom := by
  obtain ⟨newLeft, newRight, across, inLeft, before, after, inRight, minWidth⟩ :=
    grow_some left right
  obtain ⟨newTop, newBottom, down, inTop, above, below, inBottom, minHeight⟩ :=
    grow_some top bottom
  refine ⟨⟨newLeft, newTop, newRight, newBottom⟩, ?_, ?_, before, after, above, below⟩
  · simp [atLeast, across, down]
  · exact ⟨inLeft, lt_of_le_of_lt before (lt_of_lt_of_le wide after), inRight, inTop,
      lt_of_le_of_lt above (lt_of_lt_of_le tall below), inBottom, minWidth, minHeight⟩

theorem scale_some {value size : Int} (low : 0 ≤ value) (high : value ≤ size)
    (positive : 0 < size) : scale value size = some (value * BOX_SCALE / size) := by
  have inside : coerceIn value 0 size = some value := by
    rw [coerceIn, if_neg (by omega), min_eq_left high, max_eq_right low]
  have scaled : 0 ≤ value * BOX_SCALE := mul_nonneg low (by decide)
  simp only [scale, inside, Option.bind_eq_bind, Option.bind_some, if_neg positive.ne',
    Int.tdiv_eq_ediv_of_nonneg scaled]
  rfl

theorem scale_ordered {low high size : Int} (start : 0 ≤ low) (ordered : low ≤ high)
    (bound : high ≤ size) (positive : 0 < size) :
    0 ≤ low * BOX_SCALE / size ∧ low * BOX_SCALE / size ≤ high * BOX_SCALE / size ∧
      high * BOX_SCALE / size ≤ BOX_SCALE := by
  have unit : (0 : Int) ≤ BOX_SCALE := by decide
  refine ⟨?_, ?_, ?_⟩
  · exact Int.ediv_nonneg (mul_nonneg start unit) positive.le
  · exact Int.ediv_le_ediv positive (mul_le_mul_of_nonneg_right ordered unit)
  · apply Int.ediv_le_of_le_mul positive
    rw [mul_comm BOX_SCALE]
    exact mul_le_mul_of_nonneg_right bound unit

theorem normalize_some {region : Region} {width height : Nat} (fits : region.Fits width height) :
    ∃ left top right bottom, normalize region width height = some [left, top, right, bottom] ∧
      0 ≤ left ∧ left ≤ right ∧ right ≤ BOX_SCALE ∧ 0 ≤ top ∧ top ≤ bottom ∧
      bottom ≤ BOX_SCALE := by
  have wide := fits.wide
  have tall := fits.tall
  have left := fits.left
  have right := fits.right
  have top := fits.top
  have bottom := fits.bottom
  obtain ⟨across, acrossOrder, acrossBound⟩ :=
    scale_ordered left wide.le right (by omega)
  obtain ⟨down, downOrder, downBound⟩ := scale_ordered top tall.le bottom (by omega)
  have scaledLeft := scale_some left (show region.left ≤ width by omega) (by omega)
  have scaledTop := scale_some top (show region.top ≤ height by omega) (by omega)
  have scaledRight := scale_some (show 0 ≤ region.right by omega) right (by omega)
  have scaledBottom := scale_some (show 0 ≤ region.bottom by omega) bottom (by omega)
  refine ⟨_, _, _, _, ?_, across, acrossOrder, acrossBound, down, downOrder, downBound⟩
  simp only [normalize, List.mapM_cons, List.mapM_nil, scaledLeft, scaledTop, scaledRight,
    scaledBottom]
  rfl

end Growing

section Find

variable {gray : List Int32} {width height : Nat}

def Text (gray : List Int32) (width height y : Nat) : Prop :=
  y < height ∧ isTexty gray width y = some true

theorem textyRows_some (sized : gray.length = width * height) :
    ∃ rows, textyRows gray width height = some rows ∧ rows.Pairwise (· < ·) ∧
      ∀ y ∈ rows, Text gray width height y := by
  have defined : ∀ y ∈ List.range height, (isTexty gray width y).isSome :=
    fun y member => isTexty_isSome sized (List.mem_range.mp member)
  refine ⟨_, filterM_some defined, List.pairwise_lt_range.filter _, ?_⟩
  intro y member
  obtain ⟨row, texty⟩ := List.mem_filter.mp member
  exact ⟨List.mem_range.mp row, by simpa using texty⟩

/-- Row `y` of the frame lies in the region with all its columns that have a sharp step. -/
def Region.Holds (gray : List Int32) (width y : Nat) (region : Region) : Prop :=
  region.top ≤ y ∧ y < region.bottom ∧
    ∀ columns, sharpColumns gray width y = some columns →
      ∀ x ∈ columns, region.left ≤ x ∧ (x : Int) + 1 < region.right

theorem columns_some (sized : gray.length = width * height) (wide : 1 < width) {band : Band}
    (between : band.Between (Text gray width height)) :
    ∃ region, columns gray width height band = some region ∧ 0 ≤ region.left ∧
      region.left < region.right ∧ region.right ≤ width ∧ 0 ≤ region.top ∧
      region.top < region.bottom ∧ region.bottom ≤ height ∧
      ∀ y, band.first ≤ y → y ≤ band.last → region.Holds gray width y := by
  have ordered := between.ordered
  have inside := between.last.1
  have defined : ∀ y ∈ List.range' band.first (band.last + 1 - band.first),
      (sharpColumns gray width y).isSome := by
    intro y member
    have bounds := List.mem_range'_1.mp member
    obtain ⟨columns, found, -⟩ := sharpColumns_some sized (show y < height by omega)
    simp [found]
  obtain ⟨rows, read⟩ := mapM_isSome defined
  obtain ⟨forth, back⟩ := mem_mapM read
  have edge : ∀ y, band.first ≤ y → y ≤ band.last → ∀ columns,
      sharpColumns gray width y = some columns → ∀ x ∈ columns, x ∈ rows.flatten := by
    intro y above below columns found x member
    obtain ⟨row, belongs, same⟩ := forth y (List.mem_range'_1.mpr (by omega))
    rw [found, Option.some.injEq] at same
    exact List.mem_flatten.mpr ⟨row, belongs, same ▸ member⟩
  have narrow : ∀ x ∈ rows.flatten, x + 1 < width := by
    intro x member
    obtain ⟨row, belongs, inRow⟩ := List.mem_flatten.mp member
    obtain ⟨y, inBand, found⟩ := back row belongs
    have bounds := List.mem_range'_1.mp inBand
    obtain ⟨columns, same, columnBound⟩ := sharpColumns_some sized (show y < height by omega)
    rw [found, Option.some.injEq] at same
    exact columnBound x (same ▸ inRow)
  have nonempty : rows.flatten ≠ [] := by
    obtain ⟨columns, found, -⟩ := sharpColumns_some sized between.first.1
    obtain ⟨x, member⟩ :=
      List.exists_mem_of_ne_nil _ (columns_of_texty wide between.first.2 found)
    exact List.ne_nil_of_mem (edge band.first (le_refl _) ordered columns found x member)
  obtain ⟨least, leastFound⟩ := Option.ne_none_iff_exists'.mp
    (mt List.min?_eq_none_iff.mp nonempty)
  obtain ⟨greatest, greatestFound⟩ := Option.ne_none_iff_exists'.mp
    (mt List.max?_eq_none_iff.mp nonempty)
  obtain ⟨leastMember, leastBound⟩ := List.min?_eq_some_iff.mp leastFound
  obtain ⟨greatestMember, greatestBound⟩ := List.max?_eq_some_iff.mp greatestFound
  have leastColumn := narrow least leastMember
  have spread := leastBound greatest greatestMember
  have padding : PADDING = 8 := rfl
  refine ⟨⟨max (least - PADDING) 0, max (band.first - PADDING) 0,
    min (greatest + 2 + PADDING) width, min (band.last + 1 + PADDING) height⟩, ?_, ?_⟩
  · simp only [columns, read, Option.bind_eq_bind, Option.bind_some, leastFound, greatestFound,
      Option.pure_def]
  dsimp only [Region.Holds]
  refine ⟨by omega, by omega, by omega, by omega, by omega, by omega, ?_⟩
  intro y above below
  refine ⟨by omega, by omega, ?_⟩
  intro columns found x member
  have belongs := edge y above below columns found x member
  have bound := narrow x belongs
  have low := leastBound x belongs
  have high := greatestBound x belongs
  constructor
  · omega
  · omega

theorem holds_frame (sized : gray.length = width * height) {y : Nat} (row : y < height) :
    (⟨0, 0, width, height⟩ : Region).Holds gray width y := by
  refine ⟨Int.natCast_nonneg y, Int.ofNat_lt.mpr row, ?_⟩
  intro columns found x member
  obtain ⟨same, defined, bound⟩ := sharpColumns_some sized row
  rw [found, Option.some.injEq] at defined
  have narrow := bound x (defined ▸ member)
  exact ⟨Int.natCast_nonneg x, Int.ofNat_lt.mpr narrow⟩

theorem fits_frame (wide : 1 < width) (tall : 0 < height) :
    (⟨0, 0, width, height⟩ : Region).Fits width height := by
  have edge : 0 < MIN_EDGE := by decide
  constructor <;> simp only <;> omega

/-- A band grows to a region in the frame that holds its rows. -/
theorem band_some (sized : gray.length = width * height) (wide : 1 < width) {band : Band}
    (between : band.Between (Text gray width height)) :
    ∃ region, (do atLeast (← columns gray width height band) width height) = some region ∧
      region.Fits width height ∧
      ∀ y, band.first ≤ y → y ≤ band.last → region.Holds gray width y := by
  obtain ⟨cropped, found, left, across, right, top, down, bottom, holds⟩ :=
    columns_some sized wide between
  obtain ⟨grown, enlarged, fits, before, after, above, below⟩ :=
    atLeast_some left across right top down bottom
  refine ⟨grown, ?_, fits, ?_⟩
  · simp only [found, Option.bind_eq_bind, Option.bind_some, enlarged]
  intro y first last
  obtain ⟨low, high, inside⟩ := holds y first last
  refine ⟨le_trans above low, lt_of_lt_of_le high below, ?_⟩
  intro columns read x member
  obtain ⟨start, stop⟩ := inside columns read x member
  exact ⟨le_trans before start, lt_of_lt_of_le stop after⟩

/-- `find` does not throw on a frame. Its regions are few and can be cropped and normalized, and
every row of a qualifying band lies in one of them with its sharp steps. -/
theorem find_safe (gray : List Int32) (width height : Nat) (sized : gray.length = width * height)
    (wide : 1 < width) (tall : 0 < height) :
    ∃ regions rows, find gray width height = some regions ∧
      textyRows gray width height = some rows ∧
      regions.length ≤ MAX_REGIONS ∧
      (∀ region ∈ regions, region.Fits width height) ∧
      (∀ band ∈ bands rows, ∀ y, band.first ≤ y → y ≤ band.last →
        ∃ region ∈ regions, region.Holds gray width y) ∧
      ∀ region ∈ regions, ∃ left top right bottom,
        normalize region width height = some [left, top, right, bottom] ∧
        0 ≤ left ∧ left ≤ right ∧ right ≤ BOX_SCALE ∧ 0 ≤ top ∧ top ≤ bottom ∧
        bottom ≤ BOX_SCALE := by
  obtain ⟨rows, read, ordered, texty⟩ := textyRows_some sized
  have between := between_bands ordered texty
  suffices found : ∃ regions, find gray width height = some regions ∧
      regions.length ≤ MAX_REGIONS ∧ (∀ region ∈ regions, region.Fits width height) ∧
      ∀ band ∈ bands rows, ∀ y, band.first ≤ y → y ≤ band.last →
        ∃ region ∈ regions, region.Holds gray width y by
    obtain ⟨regions, found, few, fits, holds⟩ := found
    exact ⟨regions, rows, found, read, few, fits, holds,
      fun region member => normalize_some (fits region member)⟩
  simp only [find, if_pos (show gray.length = width * height ∧ 1 < width ∧ 0 < height from
    ⟨sized, wide, tall⟩), read, Option.bind_eq_bind, Option.bind_some, Option.pure_def]
  by_cases none : bands rows = []
  · rw [if_pos none]
    exact ⟨[], rfl, Nat.zero_le _, by simp, by simp [none]⟩
  · rw [if_neg none]
    split
    · refine ⟨[⟨0, 0, width, height⟩], rfl, Nat.one_le_ofNat, ?_, ?_⟩
      · simpa using fits_frame wide tall
      · intro band member y _ last
        have row := (between band member).last.1
        exact ⟨_, List.mem_singleton_self _, holds_frame sized (by omega)⟩
    · rename_i few
      have defined : ∀ band ∈ bands rows,
          (do atLeast (← columns gray width height band) width height).isSome := by
        intro band member
        obtain ⟨region, found, -⟩ := band_some sized wide (between band member)
        rw [found]
        rfl
      obtain ⟨regions, mapped⟩ := mapM_isSome defined
      obtain ⟨forth, back⟩ := mem_mapM mapped
      refine ⟨regions, mapped, ?_, ?_, ?_⟩
      · rw [length_mapM mapped]
        omega
      · intro region member
        obtain ⟨band, belongs, found⟩ := back region member
        obtain ⟨same, defined, fits, -⟩ := band_some sized wide (between band belongs)
        rw [found, Option.some.injEq] at defined
        exact defined ▸ fits
      · intro band member y first last
        obtain ⟨region, belongs, found⟩ := forth band member
        obtain ⟨same, defined, -, holds⟩ := band_some sized wide (between band member)
        rw [found, Option.some.injEq] at defined
        exact ⟨region, belongs, defined ▸ holds y first last⟩

/-- A frame of two columns with a sharp step in the rows 15 to 20. -/
def exampleFrame : List Int32 :=
  List.replicate 30 0 ++ (List.replicate 6 [0, 50]).flatten ++ List.replicate 38 0

theorem find_safe_band :
    find exampleFrame 2 40 = some [⟨0, 2, 2, 34⟩] ∧
      ∀ y, 15 ≤ y → y ≤ 20 → (⟨0, 2, 2, 34⟩ : Region).Holds exampleFrame 2 y := by
  have found : find exampleFrame 2 40 = some [⟨0, 2, 2, 34⟩] := by decide +kernel
  obtain ⟨regions, rows, same, read, -, -, holds, -⟩ :=
    find_safe exampleFrame 2 40 (by decide +kernel) (by decide) (by decide)
  obtain rfl : [⟨0, 2, 2, 34⟩] = regions := Option.some.inj (found.symm.trans same)
  obtain rfl : [15, 16, 17, 18, 19, 20] = rows :=
    Option.some.inj ((show textyRows exampleFrame 2 40 = some [15, 16, 17, 18, 19, 20] by
      decide +kernel).symm.trans read)
  refine ⟨found, fun y first last => ?_⟩
  obtain ⟨region, member, inside⟩ := holds ⟨15, 20⟩ (by decide) y first last
  exact List.mem_singleton.mp member ▸ inside

end Find

end Ovrly.Captures.TextRegions
