import DrinkRobot.Fiducial.Matches
import DrinkRobot.Lib.Nearest
import Mathlib.Data.BitVec
import Mathlib.Data.Int.ConditionallyCompleteOrder

/-!
# How features are matched

`vl_ubcmatch` compares the descriptors of two pictures. The model is its comparison of unsigned
chars; rounding to single precision is the parameter `single`.

* `ubcmatch_iff`: for a threshold of at least 1, the matches are the pairs whose distance, times the
  threshold, is below the distances to all the other descriptors of the second picture.
* `nearest_iff`: for the threshold and the descriptors of `find_coasters`, these are the pairs with
  one nearest descriptor.
* `findCoasters_order`: the position that `find_coasters` returns does not depend on the order of
  the features of either picture.
-/

namespace DrinkRobot

open OneBased
open Nearest

/-- What is known of rounding to single precision. -/
structure IsSingle (single : ℚ → ℚ) : Prop where
  mono : Monotone single
  idem : ∀ x, single (single x) = single x
  exact : ∀ n : ℕ, n ≤ 2 ^ 24 → single n = n

structure Pair where
  k1 : Nat
  k2 : Nat
  score : Int

def maxval : Int := 0x7fffffff

section Compare

variable {ND : Nat}

/-- `acc`: the sum wraps around when the int overflows. -/
def squaredDistance (l1Pt l2Pt : List.Vector (BitVec 8) ND) : Int :=
  BitVec.toInt ((List.finRange ND).foldl (fun acc bin =>
    let delta := (l1Pt.get bin).setWidth 32 - (l2Pt.get bin).setWidth 32
    acc + delta * delta) 0)

/-- The match of `L1_pt`. It is accepted only if it is unique. -/
def bestMatch (single : ℚ → ℚ) (thresh : ℚ) (L2 : List (List.Vector (BitVec 8) ND)) (k1 : Nat)
    (l1Pt : List.Vector (BitVec 8) ND) : Option Pair :=
  let found := scan maxval (L2.map (squaredDistance l1Pt))
  found.place.bind fun bestk =>
    if single (thresh * single found.best) < single found.second then
      some ⟨k1, bestk, found.best⟩
    else
      none

def compareMxUINT8Class (single : ℚ → ℚ) (thresh : ℚ)
    (L1 L2 : List (List.Vector (BitVec 8) ND)) : List Pair :=
  L1.zipIdx.filterMap fun d => bestMatch single thresh L2 d.2 d.1

/-- The matches and their scores. The threshold is 1.5 if none is given. -/
def vlUbcmatch (single : ℚ → ℚ) (thresh : Option ℚ) (L1 L2 : List (List.Vector (BitVec 8) ND)) :
    List (Nat × Nat) × List Int :=
  let pairs := compareMxUINT8Class single (single (thresh.getD (3 / 2))) L1 L2
  (pairs.map fun p => (p.k1 + 1, p.k2 + 1), pairs.map Pair.score)

/-! ## Distances -/

/-- The square of the distance of two descriptors. -/
def distanceSq (a b : List.Vector (BitVec 8) ND) : Int :=
  ∑ bin, ((a.get bin).toNat - (b.get bin).toNat : Int) ^ 2

theorem sq_sub_le (x y : BitVec 8) :
    0 ≤ (x.toNat - y.toNat : Int) ^ 2 ∧ (x.toNat - y.toNat : Int) ^ 2 ≤ 65025 := by
  have hx := x.isLt
  have hy := y.isLt
  have habs : |(x.toNat - y.toNat : Int)| ≤ 255 := by
    rw [abs_le]
    omega
  exact ⟨sq_nonneg _, sq_le_sq' (by linarith [(abs_le.mp habs).1]) (abs_le.mp habs).2⟩

/-- A summand as an int. -/
theorem toInt_square (x y : BitVec 8) :
    ((x.setWidth 32 - y.setWidth 32) * (x.setWidth 32 - y.setWidth 32)).toInt =
      (x.toNat - y.toNat : Int) ^ 2 := by
  have hx := x.isLt
  have hy := y.isLt
  have hx' : (x.setWidth 32).toInt = x.toNat := by
    rw [BitVec.toInt_eq_toNat_of_lt (by rw [BitVec.toNat_setWidth]; omega), BitVec.toNat_setWidth]
    omega
  have hy' : (y.setWidth 32).toInt = y.toNat := by
    rw [BitVec.toInt_eq_toNat_of_lt (by rw [BitVec.toNat_setWidth]; omega), BitVec.toNat_setWidth]
    omega
  have hdelta : (x.setWidth 32 - y.setWidth 32).toInt = x.toNat - y.toNat := by
    rw [BitVec.toInt_sub, hx', hy']
    exact Int.bmod_eq_of_le (by omega) (by omega)
  obtain ⟨hpos, hle⟩ := sq_sub_le x y
  rw [BitVec.toInt_mul, hdelta, ← sq]
  exact Int.bmod_eq_of_le (by omega) (by omega)

/-- The sum does not wrap around as long as there is room for the greatest squares. -/
theorem toInt_foldl_squares {β : Type} (x y : β → BitVec 8) (bins : List β) {acc : BitVec 32}
    (h0 : 0 ≤ acc.toInt) (hroom : acc.toInt + 65025 * bins.length < 2 ^ 31) :
    (bins.foldl (fun acc bin =>
      let delta := (x bin).setWidth 32 - (y bin).setWidth 32
      acc + delta * delta) acc).toInt =
      acc.toInt + (bins.map fun bin => ((x bin).toNat - (y bin).toNat : Int) ^ 2).sum := by
  induction bins generalizing acc with
  | nil => simp
  | cons bin bins ih =>
    obtain ⟨hpos, hle⟩ := sq_sub_le (x bin) (y bin)
    rw [List.length_cons] at hroom
    push_cast at hroom
    have hsum : (acc + ((x bin).setWidth 32 - (y bin).setWidth 32) *
        ((x bin).setWidth 32 - (y bin).setWidth 32)).toInt =
        acc.toInt + ((x bin).toNat - (y bin).toNat : Int) ^ 2 := by
      rw [BitVec.toInt_add, toInt_square]
      exact Int.bmod_eq_of_le (by omega) (by omega)
    rw [List.foldl_cons, ih (by rw [hsum]; omega) (by rw [hsum]; omega), hsum, List.map_cons,
      List.sum_cons, add_assoc]

theorem distanceSq_le (a b : List.Vector (BitVec 8) ND) :
    0 ≤ distanceSq a b ∧ distanceSq a b ≤ 65025 * ND := by
  constructor
  · exact Finset.sum_nonneg fun bin _ => sq_nonneg _
  · have hsum := Finset.sum_le_card_nsmul Finset.univ
      (fun bin => ((a.get bin).toNat - (b.get bin).toNat : Int) ^ 2) 65025
      fun bin _ => (sq_sub_le (a.get bin) (b.get bin)).2
    rw [Finset.card_fin, nsmul_eq_mul, mul_comm] at hsum
    exact hsum

/-- For at most 33025 bytes the int does not overflow. -/
theorem squaredDistance_eq (hND : ND ≤ 33025) (a b : List.Vector (BitVec 8) ND) :
    squaredDistance a b = distanceSq a b := by
  have hroom : (0 : BitVec 32).toInt + 65025 * (List.finRange ND).length < 2 ^ 31 := by
    rw [List.length_finRange]
    change (0 : Int) + _ < _
    omega
  rw [squaredDistance, toInt_foldl_squares a.get b.get _ le_rfl hroom, distanceSq, Fin.sum_univ_def]
  exact zero_add _

/-! ## The matches -/

variable {single : ℚ → ℚ} {thresh : ℚ} {L1 L2 : List (List.Vector (BitVec 8) ND)}

/-- The distances of a descriptor that a match of squared distance `b` has to be below. -/
def bar (single : ℚ → ℚ) (thresh : ℚ) (b : Int) : ℚ := single (thresh * single b)

theorem IsSingle.mono_int (hs : IsSingle single) : Monotone fun b : Int => single b :=
  fun _ _ h => hs.mono (Int.cast_le.mpr h)

theorem IsSingle.lt_of_lt (hs : IsSingle single) {b c : Int} (h : single b < single c) : b < c :=
  hs.mono_int.reflect_lt h

theorem IsSingle.le_bar (hs : IsSingle single) (ht : 1 ≤ thresh) {b : Int} (hb : 0 ≤ b) :
    single b ≤ bar single thresh b := by
  have h0 : single ((0 : ℕ) : ℚ) = (0 : ℕ) := hs.exact 0 (by norm_num)
  have hpos : 0 ≤ single b := by
    rw [← Nat.cast_zero, ← h0]
    exact hs.mono (by exact_mod_cast hb)
  calc single b = single (single b) := (hs.idem _).symm
    _ ≤ single (thresh * single b) := hs.mono (le_mul_of_one_le_left hpos ht)

/-- The descriptor `e` at `k` matches `a`. -/
structure Matches (single : ℚ → ℚ) (thresh : ℚ) (a : List.Vector (BitVec 8) ND)
    (L2 : List (List.Vector (BitVec 8) ND)) (k : Nat) (e : List.Vector (BitVec 8) ND) : Prop where
  here : L2[k]? = some e
  lt_max : bar single thresh (distanceSq a e) < single maxval
  others : Others L2 k fun e' => bar single thresh (distanceSq a e) < single (distanceSq a e')

theorem others_map {β γ : Type} {f : β → γ} {xs : List β} {k : Nat} {P : γ → Prop} :
    Others (xs.map f) k P ↔ Others xs k fun x => P (f x) := by
  constructor
  · intro h j x hx hj
    exact h j (f x) (by rw [List.getElem?_map, hx]; rfl) hj
  · intro h j y hy hj
    rw [List.getElem?_map, Option.map_eq_some_iff] at hy
    obtain ⟨x, hx, rfl⟩ := hy
    exact h j x hx hj

theorem bestMatch_eq_some_iff (hs : IsSingle single) (ht : 1 ≤ thresh) (hND : ND ≤ 33025) {k1 : Nat}
    {a : List.Vector (BitVec 8) ND} {p : Pair} :
    bestMatch single thresh L2 k1 a = some p ↔
      p.k1 = k1 ∧ ∃ e, p.score = distanceSq a e ∧ Matches single thresh a L2 p.k2 e := by
  have hdistance : squaredDistance a = distanceSq a := funext (squaredDistance_eq hND a)
  unfold bestMatch
  rw [hdistance]
  simp only [Option.bind_eq_some_iff, Option.ite_none_right_eq_some]
  constructor
  · -- accepted: the place is that of the least distance, and the test is about the second one
    rintro ⟨bestk, hplace, haccept, hp⟩
    obtain rfl := Option.some_inj.mp hp
    obtain ⟨hnone, -⟩ | ⟨k, hk, hat⟩ := scan_found maxval (L2.map (distanceSq a))
    · rw [hnone] at hplace
      cases hplace
    obtain rfl : k = bestk := by rw [hk] at hplace; exact Option.some_inj.mp hplace
    obtain ⟨hmax, hothers⟩ := (hat.lt_second_iff hs.mono_int).mp haccept
    have hhere := hat.here
    rw [List.getElem?_map, Option.map_eq_some_iff] at hhere
    obtain ⟨e, he, hbest⟩ := hhere
    rw [← hbest] at hmax hothers
    exact ⟨rfl, e, hbest.symm, he, hmax, fun j e' he' hj =>
      hothers j _ (by rw [List.getElem?_map, he']; rfl) hj⟩
  · rintro ⟨rfl, e, hscore, hm⟩
    -- below the others times a threshold of at least 1, so also below them without it
    have hle := hs.le_bar ht (distanceSq_le a e).1
    have hhere : (L2.map (distanceSq a))[p.k2]? = some (distanceSq a e) := by
      rw [List.getElem?_map, hm.here]
      rfl
    obtain ⟨second, hscan, hat⟩ := scan_of_lt hhere (hs.lt_of_lt (hle.trans_lt hm.lt_max))
      (others_map.mpr fun j e' he' hj => hs.lt_of_lt (hle.trans_lt (hm.others j e' he' hj)))
    rw [hscan]
    refine ⟨p.k2, rfl, (hat.lt_second_iff hs.mono_int).mpr ⟨hm.lt_max, others_map.mpr hm.others⟩, ?_⟩
    rw [← hscore]

theorem mem_compare {p : Pair} : p ∈ compareMxUINT8Class single thresh L1 L2 ↔
    ∃ k1 a, L1[k1]? = some a ∧ bestMatch single thresh L2 k1 a = some p := by
  unfold compareMxUINT8Class
  rw [List.mem_filterMap]
  constructor
  · rintro ⟨⟨a, k1⟩, hmem, hp⟩
    exact ⟨k1, a, List.mem_zipIdx_iff_getElem?.mp hmem, hp⟩
  · rintro ⟨k1, a, ha, hp⟩
    exact ⟨(a, k1), List.mem_zipIdx_iff_getElem?.mpr ha, hp⟩

theorem bestMatch_k1 {k1 : Nat} {a : List.Vector (BitVec 8) ND} {p : Pair}
    (h : bestMatch single thresh L2 k1 a = some p) : p.k1 = k1 := by
  unfold bestMatch at h
  simp only [Option.bind_eq_some_iff, Option.ite_none_right_eq_some] at h
  obtain ⟨bestk, -, -, hp⟩ := h
  rw [← Option.some_inj.mp hp]

theorem bestMatch_k2 {k1 : Nat} {a : List.Vector (BitVec 8) ND} {p : Pair}
    (h : bestMatch single thresh L2 k1 a = some p) : p.k2 < L2.length := by
  unfold bestMatch at h
  simp only [Option.bind_eq_some_iff, Option.ite_none_right_eq_some] at h
  obtain ⟨bestk, hplace, -, hp⟩ := h
  obtain rfl := Option.some_inj.mp hp
  obtain ⟨hnone, -⟩ | ⟨k, hk, hat⟩ := scan_found maxval (L2.map (squaredDistance a))
  · rw [hnone] at hplace
    cases hplace
  · have hlt := hat.lt_length
    rw [List.length_map] at hlt
    rw [hk] at hplace
    exact Option.some_inj.mp hplace ▸ hlt

theorem isSingle_id : IsSingle id := ⟨monotone_id, fun _ => rfl, fun _ _ => rfl⟩

/-- For at most 258 bytes and the threshold 1, rounding changes nothing: the one nearest descriptor is
the match. -/
theorem matches_one_iff (hs : IsSingle single) (hND : ND ≤ 258) {a e : List.Vector (BitVec 8) ND}
    {k : Nat} : Matches single 1 a L2 k e ↔
      L2[k]? = some e ∧ Others L2 k fun e' => distanceSq a e < distanceSq a e' := by
  have hexact : ∀ e', single (distanceSq a e') = distanceSq a e' := by
    intro e'
    obtain ⟨h0, hle⟩ := distanceSq_le a e'
    obtain ⟨n, hn⟩ := Int.eq_ofNat_of_zero_le h0
    rw [hn, Int.cast_natCast]
    exact hs.exact n (by omega)
  have hbar : bar single 1 (distanceSq a e) = distanceSq a e := by
    rw [bar, one_mul, hexact, hexact]
  -- `maxval` is not exact in single precision, but well above all distances
  have hmax : (distanceSq a e : ℚ) < single maxval := by
    have hle := (distanceSq_le a e).2
    have h24 : single ((2 ^ 24 : ℕ) : ℚ) = (2 ^ 24 : ℕ) := hs.exact _ le_rfl
    calc (distanceSq a e : ℚ) < (2 ^ 24 : ℕ) := by exact_mod_cast (by omega : distanceSq a e < 2 ^ 24)
      _ = single ((2 ^ 24 : ℕ) : ℚ) := h24.symm
      _ ≤ single maxval := hs.mono (by norm_num [maxval])
  constructor
  · rintro ⟨hhere, -, hothers⟩
    refine ⟨hhere, fun j e' he' hj => ?_⟩
    have hlt := hothers j e' he' hj
    rw [hbar, hexact] at hlt
    exact_mod_cast hlt
  · rintro ⟨hhere, hothers⟩
    refine ⟨hhere, by rw [hbar]; exact hmax, fun j e' he' hj => ?_⟩
    simp only [hbar, hexact]
    exact_mod_cast hothers j e' he' hj

end Compare

/-! ## `find_coasters` with these matches -/

abbrev SiftDescriptor : Type := List.Vector (BitVec 8) 128

section Toolbox

variable {single : ℚ → ℚ}

theorem ubcmatch_valid {t : Option ℚ} {da db : List SiftDescriptor} {m : Nat × Nat}
    (h : m ∈ (vlUbcmatch single t da db).1) : Valid da.length m.1 ∧ Valid db.length m.2 := by
  unfold vlUbcmatch at h
  obtain ⟨p, hp, rfl⟩ := List.mem_map.mp h
  obtain ⟨k1, a, ha, hbest⟩ := mem_compare.mp hp
  obtain rfl := bestMatch_k1 hbest
  have h1 := (List.getElem?_eq_some_iff.mp ha).1
  have h2 := bestMatch_k2 hbest
  exact ⟨⟨by omega, by omega⟩, by omega, by omega⟩

variable {ρ α : Type}

/-- The toolbox with the matches of `vl_ubcmatch`, for the features that `vl_sift` finds. -/
def siftToolbox (single : ℚ → ℚ) (rgb2gray : Image ρ → Image α) (imresize : Image α → Image α)
    (vlSift : Image α → List ((ℚ × ℚ) × SiftDescriptor))
    (sift_inside : ∀ I, ∀ p ∈ vlSift I, I.Contains p.1) : SiftToolbox ρ α SiftDescriptor where
  rgb2gray := rgb2gray
  imresize := imresize
  vlSift := vlSift
  vlUbcmatch da db := (vlUbcmatch single (some 1) da db).1
  sift_inside := sift_inside
  match_valid _ _ _ h := ubcmatch_valid h

/-- The position of the feature of the scene that a descriptor matches. -/
def matchedPosition (single : ℚ → ℚ) (scene : List ((ℚ × ℚ) × SiftDescriptor)) (a : SiftDescriptor) :
    Option (ℚ × ℚ) :=
  ((bestMatch single 1 (scene.map Prod.snd) 0 a).map Pair.k2).bind fun k => (scene[k]?).map Prod.fst

theorem bestMatch_map_k2 {thresh : ℚ} (L2 : List SiftDescriptor) (k1 k1' : Nat) (a : SiftDescriptor) :
    (bestMatch single thresh L2 k1 a).map Pair.k2 = (bestMatch single thresh L2 k1' a).map Pair.k2 := by
  unfold bestMatch
  simp only [Option.map_bind]
  congr 1
  funext bestk
  simp only [Function.comp_apply]
  split <;> rfl

/-- It is the one feature that no other is as near as. -/
theorem matchedPosition_eq_some_iff (hs : IsSingle single) {scene : List ((ℚ × ℚ) × SiftDescriptor)}
    {a : SiftDescriptor} {q : ℚ × ℚ} : matchedPosition single scene a = some q ↔
      ∃ x, x.1 = q ∧ Alone (fun y => distanceSq a y.2 ≤ distanceSq a x.2) scene x := by
  unfold matchedPosition
  simp only [Option.bind_eq_some_iff, Option.map_eq_some_iff, alone_iff]
  constructor
  · rintro ⟨k, ⟨p, hp, rfl⟩, x, hx, rfl⟩
    obtain ⟨-, e, -, hm⟩ := (bestMatch_eq_some_iff hs le_rfl (by norm_num)).mp hp
    obtain ⟨he, hothers⟩ := (matches_one_iff hs (by norm_num)).mp hm
    rw [List.getElem?_map, hx] at he
    obtain rfl : x.2 = e := Option.some_inj.mp he
    refine ⟨x, rfl, le_rfl, p.k2, hx, fun j y hy hj => not_le.mpr ?_⟩
    exact hothers j y.2 (by rw [List.getElem?_map, hy]; rfl) hj
  · rintro ⟨x, rfl, -, k, hx, hothers⟩
    refine ⟨k, ⟨⟨0, k, distanceSq a x.2⟩, ?_, rfl⟩, x, hx, rfl⟩
    refine (bestMatch_eq_some_iff hs le_rfl (by norm_num)).mpr ⟨rfl, x.2, rfl, ?_⟩
    refine (matches_one_iff hs (by norm_num)).mpr ⟨by rw [List.getElem?_map, hx]; rfl, ?_⟩
    exact others_map.mpr fun j y hy hj => not_le.mp (hothers j y hy hj)

theorem matchedPosition_perm (hs : IsSingle single) {scene scene' : List ((ℚ × ℚ) × SiftDescriptor)}
    (h : scene.Perm scene') : matchedPosition single scene = matchedPosition single scene' := by
  funext a
  apply Option.ext
  intro q
  rw [matchedPosition_eq_some_iff hs, matchedPosition_eq_some_iff hs]
  constructor
  · rintro ⟨x, hq, hx⟩
    exact ⟨x, hq, hx.perm h⟩
  · rintro ⟨x, hq, hx⟩
    exact ⟨x, hq, hx.perm h.symm⟩

/-- The scene positions of the matches, one by one for the descriptors of the marker. -/
theorem scenePositions_ubcmatch (hs : IsSingle single) (da : List SiftDescriptor)
    (scene : List ((ℚ × ℚ) × SiftDescriptor)) :
    scenePositions (scene.map Prod.fst) (vlUbcmatch single (some 1) da (scene.map Prod.snd)).1 =
      da.filterMap (matchedPosition single scene) := by
  have h1 : single 1 = 1 := by
    have h1 := hs.exact 1 (by norm_num)
    rwa [Nat.cast_one] at h1
  have hone : ∀ k1 a, (bestMatch single 1 (scene.map Prod.snd) k1 a).map
      (fun p => nth (0, 0) (scene.map Prod.fst) (p.k2 + 1)) = matchedPosition single scene a := by
    intro k1 a
    unfold matchedPosition
    rw [bestMatch_map_k2 _ 0 k1]
    cases hp : bestMatch single 1 (scene.map Prod.snd) k1 a with
    | none => rfl
    | some p =>
      have hlt := bestMatch_k2 hp
      rw [List.length_map] at hlt
      simp [nth, hlt]
  unfold scenePositions vlUbcmatch compareMxUINT8Class
  rw [Option.getD_some, h1, List.map_map, List.map_filterMap]
  have hfst : da.filterMap (matchedPosition single scene) =
      da.zipIdx.filterMap fun d => matchedPosition single scene d.1 := by
    conv_lhs => rw [← List.zipIdx_map_fst 0 da, List.filterMap_map]
    rfl
  rw [hfst]
  congr 1
  funext d
  exact hone d.2 d.1

variable [Zero α] {rgb2gray : Image ρ → Image α} {imresize : Image α → Image α}
  {vlSift vl_sift' : Image α → List ((ℚ × ℚ) × SiftDescriptor)}

/-- `find_coasters` with these matches: NaN when no descriptor of the marker is matched, and the mean
of the matched positions, beside the scene, otherwise. -/
theorem findCoasters_eq (hs : IsSingle single) (sift_inside : ∀ I, ∀ p ∈ vlSift I, I.Contains p.1)
    (marker image : Image ρ) :
    findCoasters (siftToolbox single rgb2gray imresize vlSift sift_inside) marker image =
      let Ia := imresize (rgb2gray (mirrored marker))
      let Ib := imresize (rgb2gray (mirrored image))
      let pts := ((vlSift Ia).map Prod.snd).filterMap (matchedPosition single (vlSift Ib))
      .ok (if pts = [] then (none, none) else
        (some ((meanPosition pts).1 + Ia.width), some (meanPosition pts).2)) := by
  unfold findCoasters
  simp only [siftToolbox]
  rw [visualise_eq _ _ fun m hm => by simpa using ubcmatch_valid hm, scenePositions_ubcmatch hs]
  have hnil : ∀ (fb : List (ℚ × ℚ)) (pairs : List (Nat × Nat)),
      pairs = [] ↔ scenePositions fb pairs = [] := by
    intro fb pairs
    rw [scenePositions, List.map_eq_nil_iff]
  simp only [hnil ((vlSift (imresize (rgb2gray (mirrored image)))).map Prod.fst),
    scenePositions_ubcmatch hs]

theorem meanPosition_perm {pts pts' : List (ℚ × ℚ)} (h : pts.Perm pts') :
    meanPosition pts = meanPosition pts' := by
  unfold meanPosition
  rw [Mean.mean_perm (h.map Prod.fst), Mean.mean_perm (h.map Prod.snd)]

/-- The position does not depend on the order in which `vl_sift` lists the features of either
picture. -/
theorem findCoasters_order (hs : IsSingle single)
    (sift_inside : ∀ I, ∀ p ∈ vlSift I, I.Contains p.1)
    (sift_inside' : ∀ I, ∀ p ∈ vl_sift' I, I.Contains p.1)
    (hperm : ∀ I, (vlSift I).Perm (vl_sift' I)) (marker image : Image ρ) :
    findCoasters (siftToolbox single rgb2gray imresize vlSift sift_inside) marker image =
      findCoasters (siftToolbox single rgb2gray imresize vl_sift' sift_inside') marker image := by
  rw [findCoasters_eq hs, findCoasters_eq hs]
  simp only
  generalize imresize (rgb2gray (mirrored marker)) = Ia
  generalize imresize (rgb2gray (mirrored image)) = Ib
  rw [matchedPosition_perm hs (hperm Ib)]
  have hpts := ((hperm Ia).map Prod.snd).filterMap (matchedPosition single (vl_sift' Ib))
  rw [meanPosition_perm hpts]
  by_cases hnil : ((vl_sift' Ia).map Prod.snd).filterMap (matchedPosition single (vl_sift' Ib)) = []
  · rw [if_pos hnil, if_pos (hnil ▸ hpts).eq_nil]
  · rw [if_neg hnil, if_neg fun h => hnil (h ▸ hpts).symm.eq_nil]

end Toolbox

/-- Features at the first pixel of a picture, if it has one. -/
def atCorner (ds : List SiftDescriptor) (I : Image ℚ) : List ((ℚ × ℚ) × SiftDescriptor) :=
  if 1 ≤ I.width ∧ 1 ≤ I.height then ds.map fun d => ((1, 1), d) else []

theorem atCorner_inside (ds : List SiftDescriptor) (I : Image ℚ) :
    ∀ p ∈ atCorner ds I, I.Contains p.1 := by
  unfold atCorner
  split
  · rename_i h
    rw [List.forall_mem_map]
    intro d _
    have hw : (1 : ℚ) ≤ I.width := by exact_mod_cast h.1
    have hh : (1 : ℚ) ≤ I.height := by exact_mod_cast h.2
    exact ⟨le_rfl, hw, le_rfl, hh⟩
  · simp

theorem findCoasters_order_two :
    findCoasters (siftToolbox id id id (atCorner [.replicate 128 0, .replicate 128 9])
        (atCorner_inside _)) (blank 3 4) (blank 5 6) =
      findCoasters (siftToolbox id id id (atCorner [.replicate 128 9, .replicate 128 0])
        (atCorner_inside _)) (blank 3 4) (blank 5 6) := by
  refine findCoasters_order isSingle_id _ _ (fun I => ?_) (blank 3 4) (blank 5 6)
  unfold atCorner
  split
  · exact (List.Perm.swap _ _ _).map _
  · exact .nil

end DrinkRobot
