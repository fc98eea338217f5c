import Mathlib.Data.List.Basic

namespace Lobu.Foundation

/-! # Lower case

`String.prototype.toLowerCase` by the case mappings of Unicode.
-/

/-- The characters whose lower-case mapping is one other character, in runs: the first, how many,
how far apart, and what the first one becomes. -/
def lowerRuns : List (Nat × Nat × Nat × Nat) :=
  [(65, 26, 1, 97), (192, 23, 1, 224), (216, 7, 1, 248), (256, 24, 2, 257), (306, 3, 2, 307),
    (313, 8, 2, 314), (330, 23, 2, 331), (376, 1, 1, 255), (377, 3, 2, 378), (385, 1, 1, 595),
    (386, 2, 2, 387), (390, 1, 1, 596), (391, 1, 1, 392), (393, 2, 1, 598), (395, 1, 1, 396),
    (398, 1, 1, 477), (399, 1, 1, 601), (400, 1, 1, 603), (401, 1, 1, 402), (403, 1, 1, 608),
    (404, 1, 1, 611), (406, 1, 1, 617), (407, 1, 1, 616), (408, 1, 1, 409), (412, 1, 1, 623),
    (413, 1, 1, 626), (415, 1, 1, 629), (416, 3, 2, 417), (422, 1, 1, 640), (423, 1, 1, 424),
    (425, 1, 1, 643), (428, 1, 1, 429), (430, 1, 1, 648), (431, 1, 1, 432), (433, 2, 1, 650),
    (435, 2, 2, 436), (439, 1, 1, 658), (440, 1, 1, 441), (444, 1, 1, 445), (452, 1, 1, 454),
    (453, 1, 1, 454), (455, 1, 1, 457), (456, 1, 1, 457), (458, 1, 1, 460), (459, 9, 2, 460),
    (478, 9, 2, 479), (497, 1, 1, 499), (498, 2, 2, 499), (502, 1, 1, 405), (503, 1, 1, 447),
    (504, 20, 2, 505), (544, 1, 1, 414), (546, 9, 2, 547), (570, 1, 1, 11365), (571, 1, 1, 572),
    (573, 1, 1, 410), (574, 1, 1, 11366), (577, 1, 1, 578), (579, 1, 1, 384), (580, 1, 1, 649),
    (581, 1, 1, 652), (582, 5, 2, 583), (880, 2, 2, 881), (886, 1, 1, 887), (895, 1, 1, 1011),
    (902, 1, 1, 940), (904, 3, 1, 941), (908, 1, 1, 972), (910, 2, 1, 973), (913, 17, 1, 945),
    (931, 9, 1, 963), (975, 1, 1, 983), (984, 12, 2, 985), (1012, 1, 1, 952), (1015, 1, 1, 1016),
    (1017, 1, 1, 1010), (1018, 1, 1, 1019), (1021, 3, 1, 891), (1024, 16, 1, 1104),
    (1040, 32, 1, 1072), (1120, 17, 2, 1121), (1162, 27, 2, 1163), (1216, 1, 1, 1231),
    (1217, 7, 2, 1218), (1232, 48, 2, 1233), (1329, 38, 1, 1377), (4256, 38, 1, 11520),
    (4295, 1, 1, 11559), (4301, 1, 1, 11565), (5024, 80, 1, 43888), (5104, 6, 1, 5112),
    (7312, 43, 1, 4304), (7357, 3, 1, 4349), (7680, 75, 2, 7681), (7838, 1, 1, 223),
    (7840, 48, 2, 7841), (7944, 8, 1, 7936), (7960, 6, 1, 7952), (7976, 8, 1, 7968),
    (7992, 8, 1, 7984), (8008, 6, 1, 8000), (8025, 4, 2, 8017), (8040, 8, 1, 8032),
    (8072, 8, 1, 8064), (8088, 8, 1, 8080), (8104, 8, 1, 8096), (8120, 2, 1, 8112),
    (8122, 2, 1, 8048), (8124, 1, 1, 8115), (8136, 4, 1, 8050), (8140, 1, 1, 8131),
    (8152, 2, 1, 8144), (8154, 2, 1, 8054), (8168, 2, 1, 8160), (8170, 2, 1, 8058),
    (8172, 1, 1, 8165), (8184, 2, 1, 8056), (8186, 2, 1, 8060), (8188, 1, 1, 8179),
    (8486, 1, 1, 969), (8490, 1, 1, 107), (8491, 1, 1, 229), (8498, 1, 1, 8526),
    (8544, 16, 1, 8560), (8579, 1, 1, 8580), (9398, 26, 1, 9424), (11264, 48, 1, 11312),
    (11360, 1, 1, 11361), (11362, 1, 1, 619), (11363, 1, 1, 7549), (11364, 1, 1, 637),
    (11367, 3, 2, 11368), (11373, 1, 1, 593), (11374, 1, 1, 625), (11375, 1, 1, 592),
    (11376, 1, 1, 594), (11378, 1, 1, 11379), (11381, 1, 1, 11382), (11390, 2, 1, 575),
    (11392, 50, 2, 11393), (11499, 2, 2, 11500), (11506, 1, 1, 11507), (42560, 23, 2, 42561),
    (42624, 14, 2, 42625), (42786, 7, 2, 42787), (42802, 31, 2, 42803), (42873, 2, 2, 42874),
    (42877, 1, 1, 7545), (42878, 5, 2, 42879), (42891, 1, 1, 42892), (42893, 1, 1, 613),
    (42896, 2, 2, 42897), (42902, 10, 2, 42903), (42922, 1, 1, 614), (42923, 1, 1, 604),
    (42924, 1, 1, 609), (42925, 1, 1, 620), (42926, 1, 1, 618), (42928, 1, 1, 670),
    (42929, 1, 1, 647), (42930, 1, 1, 669), (42931, 1, 1, 43859), (42932, 8, 2, 42933),
    (42948, 1, 1, 42900), (42949, 1, 1, 642), (42950, 1, 1, 7566), (42951, 2, 2, 42952),
    (42960, 1, 1, 42961), (42966, 2, 2, 42967), (42997, 1, 1, 42998), (65313, 26, 1, 65345),
    (66560, 40, 1, 66600), (66736, 36, 1, 66776), (66928, 11, 1, 66967), (66940, 15, 1, 66979),
    (66956, 7, 1, 66995), (66964, 2, 1, 67003), (68736, 51, 1, 68800), (71840, 32, 1, 71872),
    (93760, 32, 1, 93792), (125184, 34, 1, 125218)]

def lowerCode? (code : Nat) : Option Nat :=
  (lowerRuns.find? fun run => decide (run.1 ≤ code) &&
    decide (code < run.1 + run.2.1 * run.2.2.1) && decide ((code - run.1) % run.2.2.1 = 0)).map
      fun run => run.2.2.2 + (code - run.1)

/-- Only I with a dot above becomes two characters. -/
def lowerChar (c : Char) : List Char :=
  if c = '\u0130' then ['i', '\u0307']
  else match lowerCode? c.toNat with
    | some code => [Char.ofNat code]
    | none => [c]

/-- Which letters have case, and which characters are passed over when a sigma is looked at. -/
structure CaseProperties where
  isCased : Char → Bool
  isCaseIgnorable : Char → Bool

def CaseProperties.finalSigma (properties : CaseProperties) (before after : List Char) : Bool :=
  (before.dropWhile properties.isCaseIgnorable).head?.any properties.isCased &&
    !(after.dropWhile properties.isCaseIgnorable).head?.any properties.isCased

/-- `before` is what stands before the text, the nearest first. -/
def CaseProperties.lowerFrom (properties : CaseProperties) (before : List Char) : List Char → List Char
  | [] => []
  | c :: text =>
    (if c = '\u03a3' ∧ properties.finalSigma before text = true then ['\u03c2'] else lowerChar c) ++
      properties.lowerFrom (c :: before) text

def CaseProperties.toLowerCase (properties : CaseProperties) (text : List Char) : List Char :=
  properties.lowerFrom [] text

/-- No mapping changes the character. -/
def IsLower (c : Char) : Prop := lowerCode? c.toNat = none ∧ c ≠ '\u0130'

instance (c : Char) : Decidable (IsLower c) := inferInstanceAs (Decidable (_ ∧ _))

/-- No character of the one run is among what the other run's characters become. -/
def apart (image run : Nat × Nat × Nat × Nat) : Bool :=
  Nat.blt (image.2.2.2 + (image.2.1 - 1) * image.2.2.1) run.1 ||
    Nat.blt (run.1 + (run.2.1 - 1) * run.2.2.1) image.2.2.2 ||
    ((Nat.beq image.2.1 1 || Nat.beq image.2.2.1 2) && (Nat.beq run.2.1 1 || Nat.beq run.2.2.1 2) &&
      !Nat.beq (image.2.2.2 % 2) (run.1 % 2))

theorem lowerRuns_apart : (lowerRuns.all fun image => lowerRuns.all fun run => apart image run) = true := by
  decide +kernel

theorem lowerRuns_whole : ∀ run ∈ lowerRuns, (run.2.2.1 = 1 ∨ run.2.2.1 = 2) ∧
    (304 < run.2.2.2 ∨ run.2.2.2 + (run.2.1 - 1) * run.2.2.1 < 304) ∧
    run.2.2.2 + (run.2.1 - 1) * run.2.2.1 < 1114112 ∧
    (57343 < run.2.2.2 ∨ run.2.2.2 + (run.2.1 - 1) * run.2.2.1 < 55296) := by
  decide +kernel

theorem in_run {code first count stride : Nat} (isStride : stride = 1 ∨ stride = 2)
    (after : first ≤ code) (before : code < first + count * stride) (even : (code - first) % stride = 0) :
    code ≤ first + (count - 1) * stride ∧ ((count = 1 ∨ stride = 2) → code % 2 = first % 2) := by
  rcases isStride with rfl | rfl <;> omega

theorem lowerCode?_some {code mapped : Nat} (found : lowerCode? code = some mapped) :
    lowerCode? mapped = none ∧ mapped.isValidChar ∧ mapped ≠ 304 := by
  obtain ⟨image, isImage, isMapped⟩ := Option.map_eq_some_iff.mp found
  have member := List.mem_of_find?_eq_some isImage
  have inImage := List.find?_some isImage
  simp only [Bool.and_eq_true, decide_eq_true_eq] at inImage
  obtain ⟨⟨after, before⟩, even⟩ := inImage
  obtain ⟨isStride, dotted, small, surrogate⟩ := lowerRuns_whole image member
  obtain ⟨last, parity⟩ := in_run isStride after before even
  refine ⟨?_, ?_, by omega⟩
  · rw [lowerCode?, Option.map_eq_none_iff, List.find?_eq_none]
    intro run isRun inRun
    simp only [Bool.and_eq_true, decide_eq_true_eq] at inRun
    obtain ⟨⟨afterRun, beforeRun⟩, evenRun⟩ := inRun
    obtain ⟨lastRun, parityRun⟩ :=
      in_run (lowerRuns_whole run isRun).1 afterRun beforeRun evenRun
    have separate := List.all_eq_true.mp (List.all_eq_true.mp lowerRuns_apart image member) run isRun
    simp only [apart, Bool.or_eq_true, Bool.and_eq_true, Nat.blt_eq, Nat.beq_eq, Bool.not_eq_true',
      ← Bool.not_eq_true] at separate
    rcases separate with (below | above) | ⟨⟨evenImage, evenOther⟩, odd⟩
    · omega
    · omega
    · have := parity evenImage
      have := parityRun evenOther
      omega
  · show mapped < 55296 ∨ 57343 < mapped ∧ mapped < 1114112
    omega

theorem toNat_ofNat {code : Nat} (valid : code.isValidChar) : (Char.ofNat code).toNat = code := by
  rw [Char.ofNat, dif_pos valid]
  rfl

theorem lowerChar_lower {c d : Char} (member : d ∈ lowerChar c) : IsLower d := by
  rw [lowerChar] at member
  split at member
  · rcases List.mem_cons.mp member with rfl | member
    · decide +kernel
    · rw [List.mem_singleton.mp member]
      decide +kernel
  · rename_i plain
    cases found : lowerCode? c.toNat with
    | none =>
      rw [found, List.mem_singleton] at member
      exact member ▸ ⟨found, plain⟩
    | some code =>
      rw [found, List.mem_singleton] at member
      obtain ⟨lower, valid, apart⟩ := lowerCode?_some found
      have value := toNat_ofNat valid
      refine member ▸ ⟨by rw [value]; exact lower, fun same => apart ?_⟩
      rw [← value, same]
      rfl

theorem lowerChar_of_lower {c : Char} (lower : IsLower c) : lowerChar c = [c] := by
  rw [lowerChar, if_neg lower.2, lower.1]

theorem sigma_not_lower {c : Char} (lower : IsLower c) : c ≠ '\u03a3' := by
  intro same
  subst same
  revert lower
  decide +kernel

namespace CaseProperties

variable {properties : CaseProperties} {text : List Char}

theorem lowerFrom_lower {before : List Char} {c : Char}
    (member : c ∈ properties.lowerFrom before text) : IsLower c := by
  induction text generalizing before with
  | nil => cases member
  | cons first text ih =>
    rw [lowerFrom, List.mem_append] at member
    rcases member with inFirst | later
    · split at inFirst
      · rw [List.mem_singleton.mp inFirst]
        decide +kernel
      · exact lowerChar_lower inFirst
    · exact ih later

theorem lowerFrom_of_lower {before : List Char} (lower : ∀ c ∈ text, IsLower c) :
    properties.lowerFrom before text = text := by
  induction text generalizing before with
  | nil => rfl
  | cons first text ih =>
    rw [List.forall_mem_cons] at lower
    have notSigma := sigma_not_lower lower.1
    rw [lowerFrom, if_neg fun sigma => notSigma sigma.1, lowerChar_of_lower lower.1, ih lower.2]
    rfl

theorem toLowerCase_lower {c : Char} (member : c ∈ properties.toLowerCase text) : IsLower c :=
  lowerFrom_lower member

theorem toLowerCase_of_lower (lower : ∀ c ∈ text, IsLower c) : properties.toLowerCase text = text :=
  lowerFrom_of_lower lower

end CaseProperties

end Lobu.Foundation
