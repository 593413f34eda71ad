import DocumentStore.Text.LetterCase

/-! # Letter case there and back

A character that was put in lower case is put in upper case by another table, which need not lead back to
it. It does exactly for the characters that are their own upper-case images, but for six letters. The
tables are compared run by run: the images of a run of the one table lie, as a rule, in a single run of the
other one, at the opposite distance. The runs for which this fails are few, and these are gone through
number by number. -/

namespace DocumentStore.Text

namespace CaseRun

/-- Tells the numbers of a run. -/
def Holds : CaseRun → Nat → Prop
  | (first, last, step, _), n => first ≤ n ∧ n ≤ last ∧ (n - first) % step = 0

instance (run : CaseRun) (n : Nat) : Decidable (run.Holds n) :=
  match run with
  | (first, last, step, _) => inferInstanceAs (Decidable (first ≤ n ∧ n ≤ last ∧ (n - first) % step = 0))

def image : CaseRun → Nat → Nat
  | (_, _, _, distance), n => (n + distance).toNat

/-- The run of the images, which leads back. -/
def mirror : CaseRun → CaseRun
  | (first, last, step, distance) => ((first + distance).toNat, (last + distance).toNat, step, -distance)

/-- The numbers of the second run are among those of the first, at the same distance from their images. -/
def Covers (run inner : CaseRun) : Prop :=
  run.1 ≤ inner.1 ∧ inner.2.1 ≤ run.2.1 ∧ run.2.2.1 ∣ inner.1 - run.1 ∧ run.2.2.1 ∣ inner.2.2.1 ∧
    run.2.2.2 = inner.2.2.2

instance (run inner : CaseRun) : Decidable (run.Covers inner) :=
  inferInstanceAs (Decidable (_ ∧ _ ∧ _ ∧ _ ∧ _))

/-- Tells the runs that end before another one begins, and those of every second number whose numbers fall
between those of another such run. -/
def misses (inner run : CaseRun) : Bool :=
  run.2.1.blt inner.1 || (run.2.2.1 == 2 && inner.2.2.1 == 2 && (run.1 + inner.1) % 2 == 1)

variable {run inner : CaseRun} {n m : Nat}

theorem Holds.image_bounds (holds : run.Holds n) :
    run.mirror.1 ≤ run.image n ∧ run.image n ≤ run.mirror.2.1 := by
  obtain ⟨first, last, step, distance⟩ := run
  obtain ⟨low, high, -⟩ := holds
  simp only [image, mirror]
  omega

theorem Holds.mirror (holds : run.Holds n) (positive : 0 < run.mirror.1) :
    run.mirror.Holds (run.image n) ∧ run.mirror.image (run.image n) = n := by
  obtain ⟨first, last, step, distance⟩ := run
  obtain ⟨low, high, place⟩ := holds
  simp only [CaseRun.mirror] at positive
  have shifted : (n + distance).toNat - (first + distance).toNat = n - first := by omega
  simp only [Holds, image, CaseRun.mirror, shifted]
  omega

private theorem Covers.holds (covers : run.Covers inner) (holds : inner.Holds m) :
    run.Holds m ∧ run.image m = inner.image m := by
  obtain ⟨first, last, step, distance⟩ := run
  obtain ⟨first', last', step', distance'⟩ := inner
  obtain ⟨low, high, offset, steps, rfl⟩ := covers
  obtain ⟨low', high', place⟩ := holds
  dsimp only at low high offset steps
  have parts : m - first = (m - first') + (first' - first) := by omega
  have whole : step ∣ m - first := by
    rw [parts]
    exact Nat.dvd_add (Nat.dvd_trans steps (Nat.dvd_of_mod_eq_zero place)) offset
  exact ⟨⟨Nat.le_trans low low', Nat.le_trans high' high, Nat.mod_eq_zero_of_dvd whole⟩, rfl⟩

private theorem not_holds_of_misses (misses : inner.misses run) (holds : inner.Holds m) :
    ¬ run.Holds m := by
  obtain ⟨first, last, step, distance⟩ := run
  obtain ⟨first', last', step', distance'⟩ := inner
  rintro ⟨low, high, place⟩
  obtain ⟨low', high', place'⟩ := holds
  simp only [CaseRun.misses, Bool.or_eq_true, Nat.blt_eq, Bool.and_eq_true, beq_iff_eq] at misses
  rcases misses with before | ⟨⟨rfl, rfl⟩, odd⟩ <;> omega

end CaseRun

variable {run : CaseRun} {runs table : List CaseRun} {n m : Nat}

theorem runImage?_cons (n : Nat) (run : CaseRun) (runs : List CaseRun) :
    runImage? n (run :: runs) = if run.Holds n then some (run.image n) else runImage? n runs := by
  obtain ⟨first, last, step, distance⟩ := run
  rfl

theorem exists_of_runImage? (found : runImage? n runs = some m) :
    ∃ run ∈ runs, run.Holds n ∧ run.image n = m := by
  induction runs with
  | nil => cases found
  | cons run runs ih =>
    rw [runImage?_cons] at found
    split at found
    · rename_i holds
      exact ⟨run, List.mem_cons_self, holds, Option.some.inj found⟩
    · obtain ⟨other, mem, holds⟩ := ih found
      exact ⟨other, List.mem_cons_of_mem _ mem, holds⟩

theorem runImage?_dropWhile {p : CaseRun → Bool} (without : ∀ run, p run → ¬ run.Holds n) :
    runImage? n (runs.dropWhile p) = runImage? n runs := by
  induction runs with
  | nil => rfl
  | cons run runs ih =>
    rw [List.dropWhile_cons]
    split
    · rename_i passed
      rw [ih, runImage?_cons, if_neg (without run passed)]
    · rfl

/-- Tells whether all images of a run are led back by the first run of a table in which any of them could
be. -/
def CaseRun.isMirrored (table : List CaseRun) (run : CaseRun) : Bool :=
  match table.dropWhile run.mirror.misses with
  | [] => false
  | other :: _ => decide (other.Covers run.mirror)

private theorem runImage?_of_isMirrored (mirrored : run.isMirrored table) (positive : 0 < run.mirror.1)
    (holds : run.Holds n) : runImage? (run.image n) table = some n := by
  obtain ⟨there, back⟩ := holds.mirror positive
  unfold CaseRun.isMirrored at mirrored
  split at mirrored
  · cases mirrored
  · rename_i other others rest
    obtain ⟨covered, same⟩ := (of_decide_eq_true mirrored).holds there
    rw [← runImage?_dropWhile fun run misses => CaseRun.not_holds_of_misses misses there, rest,
      runImage?_cons, if_pos covered, same, back]

def CaseRun.numbers : CaseRun → List Nat
  | (first, last, step, _) => List.range' first ((last - first) / step + 1) step

theorem CaseRun.Holds.mem_numbers (holds : run.Holds n) : n ∈ run.numbers := by
  obtain ⟨first, last, step, distance⟩ := run
  obtain ⟨low, high, place⟩ := holds
  refine List.mem_range'.mpr ⟨(n - first) / step, ?_, ?_⟩
  · exact Nat.lt_succ_of_le (Nat.div_le_div_right (by omega))
  · rw [Nat.mul_div_cancel' (Nat.dvd_of_mod_eq_zero place)]
    omega

/-- Tables have too many pairs of runs to be compared pair by pair. Two sets of numbers have no number in
common if their bit masks have no bit in common. -/
def mask (numbers : List Nat) : Nat := numbers.foldr (fun n bits => bits ||| 1 <<< n) 0

private theorem testBit_mask {numbers : List Nat} : (mask numbers).testBit n ↔ n ∈ numbers := by
  induction numbers with
  | nil => simp [mask]
  | cons first numbers ih =>
    rw [mask, List.foldr_cons, Nat.testBit_or, Nat.one_shiftLeft, Nat.testBit_two_pow,
      Bool.or_eq_true, decide_eq_true_iff, List.mem_cons, ← ih, or_comm, eq_comm, mask]

private theorem not_mem_of_mask {numbers others : List Nat} (apart : mask numbers &&& mask others = 0)
    (mem : n ∈ numbers) : n ∉ others := by
  intro mem'
  have common : (mask numbers &&& mask others).testBit n := by
    rw [Nat.testBit_and, testBit_mask.mpr mem, testBit_mask.mpr mem']
    rfl
  rw [apart, Nat.zero_testBit] at common
  cases common

section Image

variable {expansions : List (Nat × List Nat)} {c : Char}

theorem lookup_eq_none (plain : n ∉ expansions.map Prod.fst) : expansions.lookup n = none := by
  refine List.lookup_eq_none_iff.mpr fun entry mem => bne_iff_ne.mpr fun same => plain ?_
  exact same ▸ List.mem_map_of_mem mem

private theorem caseImage_of_run (plain : c.toNat ∉ expansions.map Prod.fst)
    (found : runImage? c.toNat runs = some m) : caseImage runs expansions c = [Char.ofNat m] := by
  rw [caseImage, lookup_eq_none plain]
  dsimp only
  rw [found]

private theorem caseImage_of_none (plain : c.toNat ∉ expansions.map Prod.fst)
    (without : ∀ run ∈ runs, ¬ run.Holds c.toNat) : caseImage runs expansions c = [c] := by
  rw [caseImage, lookup_eq_none plain]
  dsimp only
  cases found : runImage? c.toNat runs with
  | none => rfl
  | some m =>
    obtain ⟨run, mem, holds, -⟩ := exists_of_runImage? found
    exact absurd holds (without run mem)

/-- The image of a character is an expansion, or it is at the distance of a run, or the character itself. -/
theorem caseImage_cases (runs : List CaseRun) (expansions : List (Nat × List Nat)) (c : Char) :
    (∃ image, (c.toNat, image) ∈ expansions ∧ caseImage runs expansions c = image.map Char.ofNat) ∨
      (∃ run ∈ runs, run.Holds c.toNat ∧
        caseImage runs expansions c = [Char.ofNat (run.image c.toNat)]) ∨
      caseImage runs expansions c = [c] := by
  unfold caseImage
  split
  · rename_i image found
    obtain ⟨before, after, rfl, -⟩ := List.lookup_eq_some_iff.mp found
    exact .inl ⟨image, List.mem_append_right _ List.mem_cons_self, rfl⟩
  · split
    · rename_i n found
      obtain ⟨run, mem, holds, rfl⟩ := exists_of_runImage? found
      exact .inr (.inl ⟨run, mem, holds, rfl⟩)
    · exact .inr (.inr rfl)

end Image

theorem toNat_ofNat (valid : n.isValidChar) : (Char.ofNat n).toNat = n := by
  rw [Char.ofNat, dif_pos valid]
  rfl

theorem ofNat_ne_stop (beyond : '.'.toNat < n) : Char.ofNat n ≠ '.' := by
  intro same
  by_cases valid : n.isValidChar
  · have code := toNat_ofNat valid
    rw [same] at code
    exact Nat.ne_of_lt beyond code
  · rw [Char.ofNat, dif_neg valid] at same
    cases same

theorem stop_not_mem_caseImage {expansions : List (Nat × List Nat)} {c : Char}
    (runs_beyond : ∀ run ∈ runs, '.'.toNat < run.mirror.1)
    (beyond : ∀ entry ∈ expansions, ∀ n ∈ entry.2, '.'.toNat < n) (other : c ≠ '.') :
    '.' ∉ caseImage runs expansions c := by
  rcases caseImage_cases runs expansions c with ⟨image, mem, eq⟩ | ⟨run, mem, holds, eq⟩ | eq
  · rw [eq, List.mem_map]
    rintro ⟨n, within, stop⟩
    exact ofNat_ne_stop (beyond _ mem n within) stop
  · rw [eq, List.mem_singleton]
    exact (ofNat_ne_stop (Nat.lt_of_lt_of_le (runs_beyond run mem) holds.image_bounds.1)).symm
  · rw [eq, List.mem_singleton]
    exact other.symm

/-- The upper-case letters whose lower-case images belong to other letters: capital I with a dot, the
capital theta symbol, capital sharp s, and the signs for ohm, kelvin and angstrom. -/
def irreversible : List Char := ['\u0130', '\u03F4', '\u1E9E', '\u2126', '\u212A', '\u212B']

/-- The first letters of the runs from whose lower-case images upper case does not lead back everywhere:
those with irreversible letters, and those with letters in title case, whose upper-case images are others
too. -/
def oddStarts : List Nat := [
  0x1C5, 0x1C8, 0x1CB, 0x1F2, 0x3F4, 0x1E9E, 0x1F88, 0x1F98, 0x1FA8, 0x1FBC, 0x1FCC, 0x1FFC, 0x2126,
  0x212A, 0x212B]

def CaseRun.isOdd (run : CaseRun) : Bool := oddStarts.contains run.1

def plainRuns : List CaseRun := lowerRuns.filter (! ·.isOdd)

/-- All images in the tables are beyond the full stop, so that none of them is one. -/
theorem images_beyond : (∀ run ∈ lowerRuns ++ upperRuns, '.'.toNat < run.mirror.1) ∧
    ∀ entry ∈ lowerExpansions ++ upperExpansions, ∀ n ∈ entry.2, '.'.toNat < n := by
  decide +kernel

/-- The images of the lower-case runs are characters, and led back but for odd runs. -/
theorem lowerRuns_images : ∀ run ∈ lowerRuns,
    (run.mirror.2.1 < 0xD800 ∨ 0xDFFF < run.mirror.1 ∧ run.mirror.2.1 < 0x110000) ∧
      (run.isOdd ∨ run.isMirrored upperRuns) := by
  decide +kernel

/-- The letters in plain runs have no upper-case image, and their lower-case images do not expand in upper
case. -/
theorem plainRuns_apart :
    mask (plainRuns.flatMap CaseRun.numbers)
        &&& mask (upperRuns.flatMap CaseRun.numbers ++ upperExpansions.map Prod.fst) = 0 ∧
      mask (plainRuns.flatMap fun run => run.mirror.numbers)
        &&& mask (upperExpansions.map Prod.fst) = 0 := by
  decide +kernel

private theorem oddRuns_numbers : ∀ run ∈ lowerRuns, run.isOdd → ∀ n ∈ run.numbers,
    upperImage (Char.ofNat (run.image n)) = [Char.ofNat n]
      ↔ upperImage (Char.ofNat n) = [Char.ofNat n] ∧ Char.ofNat n ∉ irreversible := by
  decide +kernel

variable {c : Char}

theorem lowerImage_ne_nil (c : Char) : lowerImage c ≠ [] := by
  rcases caseImage_cases lowerRuns lowerExpansions c with ⟨image, mem, eq⟩ | ⟨run, -, -, eq⟩ | eq
  · have expanded : image = [0x69, 0x307] := congrArg Prod.snd (List.mem_singleton.mp mem)
    rw [lowerImage, eq, expanded]
    exact List.cons_ne_nil _ _
  · rw [lowerImage, eq]
    exact List.cons_ne_nil _ _
  · rw [lowerImage, eq]
    exact List.cons_ne_nil _ _

theorem stop_not_mem_lowerImage (other : c ≠ '.') : '.' ∉ lowerImage c := by
  refine stop_not_mem_caseImage (fun run mem => images_beyond.1 run ?_)
    (fun entry mem => images_beyond.2 entry ?_) other
  · exact List.mem_append_left _ mem
  · exact List.mem_append_left _ mem

theorem stop_not_mem_upperImage (other : c ≠ '.') : '.' ∉ upperImage c := by
  refine stop_not_mem_caseImage (fun run mem => images_beyond.1 run ?_)
    (fun entry mem => images_beyond.2 entry ?_) other
  · exact List.mem_append_right _ mem
  · exact List.mem_append_right _ mem

private theorem isValidChar_image (mem : run ∈ lowerRuns) (holds : run.Holds n) :
    (run.image n).isValidChar := by
  obtain ⟨range, -⟩ := lowerRuns_images run mem
  obtain ⟨low, high⟩ := holds.image_bounds
  unfold Nat.isValidChar
  omega

theorem upperImage_of_plain (mem : run ∈ lowerRuns) (plain : run.isOdd = false)
    (holds : run.Holds c.toNat) :
    upperImage c = [c] ∧ upperImage (Char.ofNat (run.image c.toNat)) = [c] := by
  obtain ⟨numbers_apart, images_apart⟩ := plainRuns_apart
  have within : run ∈ plainRuns := List.mem_filter.mpr ⟨mem, Bool.not_eq_true' _ |>.mpr plain⟩
  have mirrored := (lowerRuns_images run mem).2.resolve_left (Bool.not_eq_true _ |>.mpr plain)
  have positive : 0 < run.mirror.1 :=
    Nat.zero_lt_of_lt (images_beyond.1 run (List.mem_append_left _ mem))
  constructor
  · have apart := not_mem_of_mask numbers_apart
      (List.mem_flatMap.mpr ⟨run, within, holds.mem_numbers⟩)
    obtain ⟨unlisted, unexpanded⟩ := not_or.mp (mt List.mem_append.mpr apart)
    refine caseImage_of_none unexpanded fun other mem holds => unlisted ?_
    exact List.mem_flatMap.mpr ⟨other, mem, holds.mem_numbers⟩
  · have code := toNat_ofNat (isValidChar_image mem holds)
    have unexpanded := not_mem_of_mask images_apart
      (List.mem_flatMap.mpr ⟨run, within, (holds.mirror positive).1.mem_numbers⟩)
    have back := runImage?_of_isMirrored mirrored positive holds
    rw [← code] at unexpanded back
    rw [upperImage, caseImage_of_run unexpanded back, Char.ofNat_toNat]

/-- Replaces the first character of a list by its image. -/
def mapHead (image : Char → List Char) : List Char → List Char
  | [] => []
  | c :: cs => image c ++ cs

private theorem not_upper_lower_of_irreversible :
    ∀ c ∈ irreversible, mapHead upperImage (lowerImage c) ≠ [c] := by
  -- a test of the list, so that not all characters are gone through
  have checked : irreversible.all fun c => mapHead upperImage (lowerImage c) != [c] := by decide +kernel
  exact fun c mem => bne_iff_ne.mp (List.all_eq_true.mp checked c mem)

/-- A character comes back from lower case if and only if it is its own upper-case image and none of the six
letters. -/
theorem upper_lower_iff :
    mapHead upperImage (lowerImage c) = [c] ↔ upperImage c = [c] ∧ c ∉ irreversible := by
  have reversible (returns : mapHead upperImage (lowerImage c) = [c]) : c ∉ irreversible :=
    fun mem => not_upper_lower_of_irreversible c mem returns
  rcases caseImage_cases lowerRuns lowerExpansions c with ⟨image, mem, -⟩ | ⟨run, mem, holds, eq⟩ | eq
  · have dotted : c = '\u0130' := Char.toNat_inj.mp (congrArg Prod.fst (List.mem_singleton.mp mem))
    have listed : c ∈ irreversible := dotted ▸ List.mem_cons_self
    exact iff_of_false (fun returns => reversible returns listed) fun ⟨_, unlisted⟩ => unlisted listed
  · have lowered : mapHead upperImage (lowerImage c) = upperImage (Char.ofNat (run.image c.toNat)) := by
      rw [lowerImage, eq]
      exact List.append_nil _
    cases odd : run.isOdd with
    | true =>
      have listed := oddRuns_numbers run mem odd c.toNat holds.mem_numbers
      rwa [Char.ofNat_toNat, ← lowered] at listed
    | false =>
      obtain ⟨own, returns⟩ := upperImage_of_plain mem odd holds
      rw [← lowered] at returns
      exact iff_of_true returns ⟨own, reversible returns⟩
  · have lowered : mapHead upperImage (lowerImage c) = upperImage c := by
      rw [lowerImage, eq]
      exact List.append_nil _
    rw [lowered] at reversible ⊢
    exact ⟨fun own => ⟨own, reversible own⟩, fun ⟨own, _⟩ => own⟩

end DocumentStore.Text
