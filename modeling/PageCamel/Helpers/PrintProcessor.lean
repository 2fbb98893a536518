import Mathlib.Algebra.Group.Nat.Defs
import Mathlib.Data.List.Forall2
import Mathlib.Data.List.GetD
import Mathlib.Data.List.Range
import Mathlib.Tactic.Common

/-!
The ESC/POS encoders of receipt printers (`Helpers/PrintProcessor.pm`): the picture of
the receipt is sent as `GS v 0` blocks of pixel rows. Strings are lists of code points.
-/

namespace PageCamel.Helpers

/-- What the encoders ask of a `GD::Image`. -/
structure Image where
  width : Nat
  height : Nat
  getPixel : Nat → Nat → Nat

structure PrintProcessor where
  img : Image
  imgwhite? : Option Nat := none
  escPosSpeed : Int := 1
  escPosDensity : Int := 1
  kickCashdrawer : Bool := false

/-- `chr`, which makes the replacement character of a negative number. -/
def chr (n : Int) : Nat := if n < 0 then 0xFFFD else n.toNat

/-- The values of `for(my $x = 0; $x < $stop; $x += $stride)`. -/
def upTo (stop stride : Nat) : List Nat :=
  (List.range ((stop + stride - 1) / stride)).map (stride * ·)

namespace PrintProcessor

def imgwhite (p : PrintProcessor) : Nat := p.imgwhite?.getD 0

/-! ### The commands around the picture -/

def reset : List Nat := [0x1B, 0x40]

def kickDrawers (p : PrintProcessor) : List Nat :=
  if p.kickCashdrawer then [0x1B, 0x70, 0x00, 0xFE, 0xFE, 0x1B, 0x70, 0x01, 0xFE, 0xFE] else []

def removeLineSpacing : List Nat := [0x0A, 0x1B, 0x33, 0, 0x0A]

def densityrangeepson (p : PrintProcessor) : Int := 255 - (p.escPosDensity * 250).tdiv 15

def makeDarker (p : PrintProcessor) : List Nat :=
  [0x1D, 0x28, 0x4B, 0x02, 0x00, 0x31, chr p.densityrangeepson]

def makeFaster (p : PrintProcessor) : List Nat :=
  [0x1D, 0x28, 0x4B, 0x02, 0x00, 0x32, chr p.escPosSpeed]

def halfCut (extrafeed : Bool) : List Nat :=
  [0x1D, 0x56, 0x42, 0x00] ++
    if extrafeed then (List.replicate 5 [0x20, 0x0A]).flatten else []

def beeping (beep : Bool) : List Nat := if beep then [0x1B, 0x42, 0x04, 0x05] else []

/-! ### The picture -/

/-- The test on a pixel: none behind the right edge is printed. -/
def dark (img : Image) (imgwhite y x : Nat) : Bool := x < img.width ∧ img.getPixel x y ≠ imgwhite

/-- The first `n` bits, shifted into a byte from the right. -/
def shiftIn (bit : Nat → Bool) (n : Nat) : Nat :=
  (List.range n).foldl
    (fun byte xoffs => if bit xoffs then byte <<< 1 ||| 0x01 else byte <<< 1) 0

/-- The bytes of one row of pixels. -/
def rowBytes (img : Image) (imgwhite y : Nat) : List Nat :=
  (upTo img.width 8).map fun x => shiftIn (fun xoffs => dark img imgwhite y (x + xoffs)) 8

/-- `GS v 0` for rows of `bytew` bytes. -/
def blockHeader (bytew blockh : Nat) : List Nat :=
  [0x1D, 0x76, 0x30, 0, bytew &&& 0xff, (bytew >>> 8) &&& 0xff,
    blockh &&& 0xff, (blockh >>> 8) &&& 0xff]

/-- The loop over the blocks, with so many blank bytes at the left of each row. -/
def raster (bytew blank blocksize : Nat) (img : Image) (imgwhite : Nat) : List Nat :=
  (upTo img.height blocksize).flatMap fun blockoffs =>
    let blockh := min (img.height - blockoffs) blocksize
    blockHeader bytew blockh ++ (List.range blockh).flatMap fun y =>
      List.replicate blank 0x00 ++ rowBytes img imgwhite (y + blockoffs)

/-! ### `_escpos_tmt88` -/

def tmt88Preamble (p : PrintProcessor) : List Nat :=
  reset ++ p.kickDrawers ++ removeLineSpacing ++ p.makeDarker ++ p.makeFaster

def centerpixels (tmm30 : Bool) : Nat := if tmm30 then 5 * 8 else 0

def tmt88Blocksize (ordermanprinter : Bool) : Nat := if ordermanprinter then 300 else 2000

/-- `_escpos_tmt88`. The width in bytes is a fraction that `&` cuts down. -/
def escposTmt88 (p : PrintProcessor) (extrafeed beep ordermanprinter tmm30 : Bool) : List Nat :=
  tmt88Preamble p ++
    raster ((p.img.width + centerpixels tmm30) / 8) (centerpixels tmm30 / 8)
      (tmt88Blocksize ordermanprinter) p.img p.imgwhite ++
    (halfCut extrafeed ++ beeping beep)

/-! ### `_escpos_cts801` -/

def blankspaces : Nat := 8

def escposCts801 (p : PrintProcessor) (extrafeed _beep : Bool) : List Nat :=
  tmt88Preamble p ++
    raster (p.img.width / 8 + blankspaces) blankspaces 1000 p.img p.imgwhite ++
    halfCut extrafeed

/-! ### `_escpos_tmp20` -/

/-- What is used of GD and of floating-point division: `int($h / ($w / 384))`, and a new
picture of that size to which another was copied. -/
structure GD where
  scaledHeight : Nat → Nat → Nat
  copyResized : Image → Nat → Nat → Option Image

/-- `_resize_for_tmp20`, which dies on a picture without width. -/
def resizeForTmp20 (gd : GD) (img : Image) : Option Image :=
  let destw := 384
  if img.width = 0 then none
  else gd.copyResized img destw (gd.scaledHeight img.width img.height)

def tmp20Preamble (p : PrintProcessor) : List Nat :=
  reset ++ removeLineSpacing ++ p.makeDarker ++ p.makeFaster

def escposTmp20 (gd : GD) (p : PrintProcessor) (extrafeed _beep : Bool) : Option (List Nat) :=
  (resizeForTmp20 gd p.img).map fun img =>
    tmp20Preamble p ++ raster (img.width / 8) 0 1000 img p.imgwhite ++ halfCut extrafeed

end PrintProcessor

/-! ### What a printer reads -/

/-- A `GS v 0` block as the printer takes it: the header counts its rows, and the bytes of
a row. -/
structure RasterBlock where
  xL : Nat
  xH : Nat
  yL : Nat
  yH : Nat
  rows : List (List Nat)
  header_octets : xL < 256 ∧ xH < 256 ∧ yL < 256 ∧ yH < 256
  length_rows : rows.length = yL + 256 * yH
  row_length : ∀ row ∈ rows, row.length = xL + 256 * xH

def RasterBlock.bytes (b : RasterBlock) : List Nat :=
  [0x1D, 0x76, 0x30, 0, b.xL, b.xH, b.yL, b.yH] ++ b.rows.flatten

/-- The row shows line `y` of the picture behind the blank bytes. -/
structure ShowsLine (blank : Nat) (img : Image) (imgwhite y : Nat) (row : List Nat) : Prop where
  length : row.length = blank + (img.width + 7) / 8
  octets : ∀ byte ∈ row, byte < 256
  margin : ∀ i < blank, row[i]? = some 0
  pixels : ∀ x < 8 * ((img.width + 7) / 8),
    (row.getD (blank + x / 8) 0).testBit (7 - x % 8) =
      decide (x < img.width ∧ img.getPixel x y ≠ imgwhite)

/-- Blocks that together show every line of the picture, once and in order. -/
def ShowsImage (blank : Nat) (img : Image) (imgwhite : Nat) (raw : List Nat) : Prop :=
  ∃ blocks : List RasterBlock, raw = blocks.flatMap RasterBlock.bytes ∧
    List.Forall₂ (ShowsLine blank img imgwhite) (List.range img.height) (blocks.flatMap (·.rows))

/-- The output is the picture between these commands. -/
def Prints (blank : Nat) (img : Image) (imgwhite : Nat) (before raw after : List Nat) : Prop :=
  ∃ picture, raw = before ++ picture ++ after ∧ ShowsImage blank img imgwhite picture

namespace PrintProcessor

/-! ### One row -/

theorem shiftIn_succ (bit : Nat → Bool) (n : Nat) :
    shiftIn bit (n + 1) = shiftIn bit n <<< 1 ||| (bit n).toNat := by
  rw [shiftIn, List.range_succ, List.foldl_append, List.foldl_cons, List.foldl_nil, ← shiftIn]
  cases bit n <;> simp

/-- The first bit shifted in is the highest one. -/
theorem testBit_shiftIn (bit : Nat → Bool) (n i : Nat) :
    (shiftIn bit n).testBit i = decide (i < n ∧ bit (n - 1 - i)) := by
  induction n generalizing i with
  | zero => simp [shiftIn]
  | succ n ih =>
      rw [shiftIn_succ, Nat.testBit_or, Nat.testBit_shiftLeft]
      cases i with
      | zero => cases h : bit n <;> simp [h]
      | succ i =>
          have hLow : (bit n).toNat.testBit (i + 1) = false :=
            Nat.testBit_lt_two_pow (lt_of_lt_of_le (Bool.toNat_lt _)
              (Nat.pow_le_pow_right Nat.zero_lt_two (by omega : 1 ≤ i + 1)))
          have hIndex : n + 1 - 1 - (i + 1) = n - 1 - i := by omega
          rw [hLow, Nat.add_sub_cancel i 1, ih, hIndex]
          simp

theorem shiftIn_lt (bit : Nat → Bool) (n : Nat) : shiftIn bit n < 2 ^ n := by
  refine Nat.lt_pow_two_of_testBit _ fun i hi => ?_
  rw [testBit_shiftIn]
  exact decide_eq_false fun h => Nat.not_lt.mpr hi h.1

theorem length_upTo (stop stride : Nat) :
    (upTo stop stride).length = (stop + stride - 1) / stride := by
  simp [upTo]

theorem length_rowBytes (img : Image) (imgwhite y : Nat) :
    (rowBytes img imgwhite y).length = (img.width + 7) / 8 := by
  rw [rowBytes, List.length_map, length_upTo]
  rfl

theorem getD_rowBytes (img : Image) (imgwhite y : Nat) {i : Nat} (h : i < (img.width + 7) / 8) :
    (rowBytes img imgwhite y).getD i 0 =
      shiftIn (fun xoffs => dark img imgwhite y (8 * i + xoffs)) 8 := by
  have hi : i < (rowBytes img imgwhite y).length := by rwa [length_rowBytes]
  rw [List.getD_eq_getElem _ _ hi]
  simp [rowBytes, upTo]

theorem showsLine_row (blank : Nat) (img : Image) (imgwhite y : Nat) :
    ShowsLine blank img imgwhite y (List.replicate blank 0x00 ++ rowBytes img imgwhite y) where
  length := by rw [List.length_append, List.length_replicate, length_rowBytes]
  octets := by
    intro byte hMem
    rcases List.mem_append.mp hMem with hBlank | hRow
    · rw [List.eq_of_mem_replicate hBlank]
      decide
    · obtain ⟨x, -, rfl⟩ := List.mem_map.mp hRow
      exact shiftIn_lt _ 8
  margin := by
    intro i hi
    rw [List.getElem?_append_left (by rwa [List.length_replicate]), List.getElem?_replicate,
      if_pos hi]
  pixels := by
    intro x hx
    have hByte : x / 8 < (img.width + 7) / 8 := by omega
    have hPixel : 8 * (x / 8) + (8 - 1 - (7 - x % 8)) = x := by omega
    rw [List.getD_append_right _ _ _ _ (by simp), List.length_replicate, Nat.add_sub_cancel_left,
      getD_rowBytes img imgwhite y hByte, testBit_shiftIn, hPixel]
    simp only [dark, decide_eq_true_eq]
    exact decide_eq_decide.mpr (and_iff_right (by omega))

/-! ### The blocks -/

theorem blockHeader_eq (bytew blockh : Nat) :
    blockHeader bytew blockh =
      [0x1D, 0x76, 0x30, 0, bytew % 256, bytew / 256 % 256, blockh % 256, blockh / 256 % 256] := by
  have hMask (n : Nat) : n &&& 0xff = n % 256 := Nat.and_two_pow_sub_one_eq_mod n 8
  simp only [blockHeader, hMask, Nat.shiftRight_eq_div_pow, Nat.reducePow]

/-- The lines the first `n` blocks hold. -/
theorem range_blocks (stop stride n : Nat) :
    ((List.range n).map (stride * ·)).flatMap
        (fun offs => (List.range (min (stop - offs) stride)).map (· + offs)) =
      List.range (min stop (stride * n)) := by
  induction n with
  | zero => simp
  | succ n ih =>
      have hLines : min stop (stride * (n + 1)) =
          min stop (stride * n) + min (stop - stride * n) stride := by
        rw [Nat.mul_succ]
        omega
      rw [List.range_succ, List.map_append, List.flatMap_append, ih, hLines, List.range_add,
        List.map_singleton, List.flatMap_singleton]
      by_cases hStop : stop ≤ stride * n
      · rw [Nat.sub_eq_zero_of_le hStop, Nat.zero_min]
        rfl
      · rw [Nat.min_eq_right (Nat.le_of_not_le hStop)]
        simp only [Nat.add_comm]

theorem flatMap_upTo (stop : Nat) {stride : Nat} (hStride : 0 < stride) :
    (upTo stop stride).flatMap
        (fun offs => (List.range (min (stop - offs) stride)).map (· + offs)) =
      List.range stop := by
  have hCover : stop ≤ stride * ((stop + stride - 1) / stride) := by
    have := Nat.div_add_mod (stop + stride - 1) stride
    have := Nat.mod_lt (stop + stride - 1) hStride
    omega
  rw [upTo, range_blocks, Nat.min_eq_left hCover]

theorem upTo_cons {stop stride : Nat} (hStop : 0 < stop) (hStride : 0 < stride) :
    ∃ offs, upTo stop stride = 0 :: offs := by
  have hSteps : 0 < (stop + stride - 1) / stride := Nat.div_pos (by omega) hStride
  obtain ⟨n, hn⟩ := Nat.exists_eq_succ_of_ne_zero (Nat.pos_iff_ne_zero.mp hSteps)
  exact ⟨_, by rw [upTo, hn, List.range_succ_eq_map, List.map_cons, Nat.mul_zero]⟩

section
variable (blank blocksize : Nat) (img : Image) (imgwhite : Nat)

/-- A row as the loop makes it. -/
def rasterRow (y : Nat) : List Nat := List.replicate blank 0x00 ++ rowBytes img imgwhite y

/-- A block of the loop, where the header has room for the width of its rows. -/
def rasterBlock (hBlock : blocksize < 65536) (hWidth : blank + (img.width + 7) / 8 < 65536)
    (blockoffs : Nat) : RasterBlock where
  xL := (blank + (img.width + 7) / 8) % 256
  xH := (blank + (img.width + 7) / 8) / 256
  yL := min (img.height - blockoffs) blocksize % 256
  yH := min (img.height - blockoffs) blocksize / 256
  rows := (List.range (min (img.height - blockoffs) blocksize)).map fun y =>
    rasterRow blank img imgwhite (y + blockoffs)
  header_octets := by omega
  length_rows := by rw [List.length_map, List.length_range, Nat.mod_add_div]
  row_length := by
    intro row hRow
    obtain ⟨y, -, rfl⟩ := List.mem_map.mp hRow
    rw [Nat.mod_add_div]
    exact (showsLine_row blank img imgwhite (y + blockoffs)).length

theorem rasterBlock_bytes (hBlock : blocksize < 65536)
    (hWidth : blank + (img.width + 7) / 8 < 65536) (blockoffs : Nat) :
    (rasterBlock blank blocksize img imgwhite hBlock hWidth blockoffs).bytes =
      blockHeader (blank + (img.width + 7) / 8) (min (img.height - blockoffs) blocksize) ++
        (List.range (min (img.height - blockoffs) blocksize)).flatMap fun y =>
          rasterRow blank img imgwhite (y + blockoffs) := by
  have hRows : min (img.height - blockoffs) blocksize < 65536 := by omega
  simp only [RasterBlock.bytes, rasterBlock, List.flatMap_def]
  rw [blockHeader_eq, Nat.mod_eq_of_lt (Nat.div_lt_of_lt_mul hWidth),
    Nat.mod_eq_of_lt (Nat.div_lt_of_lt_mul hRows)]

/-- Where the header counts the bytes of a row, the loop prints the picture. -/
theorem showsImage_raster (hPos : 0 < blocksize) (hBlock : blocksize < 65536)
    (hWidth : blank + (img.width + 7) / 8 < 65536) :
    ShowsImage blank img imgwhite
      (raster (blank + (img.width + 7) / 8) blank blocksize img imgwhite) := by
  refine ⟨(upTo img.height blocksize).map
    (rasterBlock blank blocksize img imgwhite hBlock hWidth), ?_, ?_⟩
  · rw [List.flatMap_map]
    simp only [rasterBlock_bytes]
    rfl
  · have hRows : ((upTo img.height blocksize).map
        (rasterBlock blank blocksize img imgwhite hBlock hWidth)).flatMap (·.rows) =
        (List.range img.height).map (rasterRow blank img imgwhite) := by
      conv_rhs => rw [← flatMap_upTo img.height hPos]
      rw [List.flatMap_map, List.map_flatMap]
      simp only [rasterBlock, List.map_map, Function.comp_def]
    rw [hRows, List.forall₂_map_right_iff, List.forall₂_same]
    exact fun y _ => showsLine_row blank img imgwhite y

/-- The first header says what a printer takes for the bytes of the first line. -/
theorem width_of_showsImage {bytew : Nat} (hHeight : 0 < img.height) (hPos : 0 < blocksize)
    (hBlock : blocksize < 65536)
    (hShows : ShowsImage blank img imgwhite (raster bytew blank blocksize img imgwhite)) :
    blank + (img.width + 7) / 8 = bytew % 65536 := by
  obtain ⟨blocks, hRaw, hLines⟩ := hShows
  obtain ⟨offs, hOffs⟩ := upTo_cons hHeight hPos
  have hRows : 0 < min (img.height - 0) blocksize ∧ min (img.height - 0) blocksize < 65536 := by
    omega
  simp only [raster, hOffs, List.flatMap_cons, blockHeader_eq] at hRaw
  generalize min (img.height - 0) blocksize = blockh at hRaw hRows
  cases blocks with
  | nil => simp at hRaw
  | cons b blocks =>
      rw [List.flatMap_cons, RasterBlock.bytes] at hRaw
      simp only [List.cons_append, List.cons.injEq, true_and] at hRaw
      obtain ⟨hLow, hHigh, hLowRows, hHighRows, -⟩ := hRaw
      have hWidth : b.xL + 256 * b.xH = bytew % 65536 := by omega
      have hSome : 0 < b.rows.length := by
        rw [b.length_rows]
        omega
      obtain ⟨row, rows, hCons⟩ := List.exists_cons_of_length_pos hSome
      obtain ⟨n, hn⟩ := Nat.exists_eq_succ_of_ne_zero (Nat.pos_iff_ne_zero.mp hHeight)
      rw [List.flatMap_cons, hCons, hn, List.range_succ_eq_map, List.cons_append] at hLines
      cases hLines with
      | cons hFirst _ =>
          rw [← hWidth, ← b.row_length row (by rw [hCons]; exact List.mem_cons_self)]
          exact hFirst.length.symm

/-- The blocks are right when there is nothing to print, or when the rows end with a byte
and the header has room for their width. -/
theorem showsImage_raster_iff {bytew : Nat} (hBytew : bytew = img.width / 8 + blank)
    (hPos : 0 < blocksize) (hBlock : blocksize < 65536) :
    ShowsImage blank img imgwhite (raster bytew blank blocksize img imgwhite) ↔
      img.height = 0 ∨ (8 ∣ img.width ∧ bytew < 65536) := by
  constructor
  · intro hShows
    rcases Nat.eq_zero_or_pos img.height with hEmpty | hHeight
    · exact .inl hEmpty
    · have := width_of_showsImage blank blocksize img imgwhite hHeight hPos hBlock hShows
      right
      omega
  · rintro (hEmpty | ⟨hWhole, hRoom⟩)
    · refine ⟨[], ?_, ?_⟩
      · have hNone : (0 + blocksize - 1) / blocksize = 0 := Nat.div_eq_of_lt (by omega)
        rw [raster, hEmpty, upTo, hNone]
        rfl
      · rw [hEmpty]
        exact .nil
    · have hRow : bytew = blank + (img.width + 7) / 8 := by omega
      rw [hRow]
      exact showsImage_raster blank blocksize img imgwhite hPos hBlock (hRow ▸ hRoom)

theorem prints_iff (before raster after : List Nat) :
    Prints blank img imgwhite before (before ++ raster ++ after) after ↔
      ShowsImage blank img imgwhite raster := by
  constructor
  · rintro ⟨picture, hRaw, hShows⟩
    rw [List.append_cancel_left (List.append_cancel_right hRaw)]
    exact hShows
  · exact fun hShows => ⟨raster, rfl, hShows⟩

end

/-- The three encoders put right blocks out for just these pictures; those for the small
belt printer are made to fit. -/
theorem escpos_prints_iff (p : PrintProcessor) (gd : GD)
    (hResized : ∀ src w h img, gd.copyResized src w h = some img → img.width = w) :
    (∀ extrafeed beep ordermanprinter tmm30,
      Prints (centerpixels tmm30 / 8) p.img p.imgwhite (tmt88Preamble p)
          (escposTmt88 p extrafeed beep ordermanprinter tmm30)
          (halfCut extrafeed ++ beeping beep) ↔
        p.img.height = 0 ∨
          (8 ∣ p.img.width ∧ (p.img.width + centerpixels tmm30) / 8 < 65536)) ∧
    (∀ extrafeed beep,
      Prints blankspaces p.img p.imgwhite (tmt88Preamble p) (escposCts801 p extrafeed beep)
          (halfCut extrafeed) ↔
        p.img.height = 0 ∨ (8 ∣ p.img.width ∧ p.img.width / 8 + blankspaces < 65536)) ∧
    (∀ extrafeed beep raw, escposTmp20 gd p extrafeed beep = some raw →
      ∃ img, resizeForTmp20 gd p.img = some img ∧
        Prints 0 img p.imgwhite (tmp20Preamble p) raw (halfCut extrafeed)) := by
  refine ⟨fun extrafeed beep ordermanprinter tmm30 => ?_, fun extrafeed beep => ?_,
    fun extrafeed beep raw hRaw => ?_⟩
  · have hCenter : (p.img.width + centerpixels tmm30) / 8 =
        p.img.width / 8 + centerpixels tmm30 / 8 := by
      cases tmm30
      · rfl
      · exact Nat.add_mul_div_left _ 5 (by decide : 0 < 8)
    have hSize : 0 < tmt88Blocksize ordermanprinter ∧
        tmt88Blocksize ordermanprinter < 65536 := by
      cases ordermanprinter <;> decide
    rw [escposTmt88, prints_iff]
    exact showsImage_raster_iff _ _ _ _ hCenter hSize.1 hSize.2
  · rw [escposCts801, prints_iff]
    exact showsImage_raster_iff _ _ _ _ rfl (by decide) (by decide)
  · obtain ⟨img, hImg, rfl⟩ := Option.map_eq_some_iff.mp hRaw
    have hWidth : img.width = 384 := by
      rw [resizeForTmp20] at hImg
      split at hImg
      · cases hImg
      · exact hResized _ _ _ _ hImg
    refine ⟨img, hImg, (prints_iff _ _ _ _ _ _).mpr ?_⟩
    refine (showsImage_raster_iff _ _ _ _ rfl (by decide) (by decide)).mpr (.inr ?_)
    rw [hWidth]
    decide

/-- Where a picture is put on paper of another width, every pixel is white. -/
def blankGD : GD where
  scaledHeight w h := h * 384 / w
  copyResized _ w h := some ⟨w, h, fun _ _ => 0⟩

theorem escpos_prints_receipt :
    Prints 0 ⟨512, 1, fun _ _ => 1⟩ 0 (tmt88Preamble ⟨⟨512, 1, fun _ _ => 1⟩, none, 1, 1, false⟩)
      (escposTmt88 ⟨⟨512, 1, fun _ _ => 1⟩, none, 1, 1, false⟩ false false false false)
      (halfCut false ++ beeping false) :=
  ((escpos_prints_iff ⟨⟨512, 1, fun _ _ => 1⟩, none, 1, 1, false⟩ blankGD
    (by rintro _ _ _ _ ⟨⟩; rfl)).1 false false false false).mpr (.inr (by decide))

/-- A picture of 9 × 1 pixels: the header says one byte a row, and each row has two. -/
theorem escpos_prints_odd_width :
    ¬ Prints 0 ⟨9, 1, fun _ _ => 1⟩ 0 (tmt88Preamble ⟨⟨9, 1, fun _ _ => 1⟩, none, 1, 1, false⟩)
      (escposTmt88 ⟨⟨9, 1, fun _ _ => 1⟩, none, 1, 1, false⟩ false false false false)
      (halfCut false ++ beeping false) := by
  rw [escposTmt88, prints_iff]
  intro hShows
  exact absurd (width_of_showsImage _ 2000 _ _ Nat.one_pos (by decide) (by decide) hShows)
    (by decide)

end PrintProcessor

end PageCamel.Helpers
