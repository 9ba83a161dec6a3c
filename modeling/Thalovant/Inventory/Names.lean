import Thalovant.Lib.Runs
import Thalovant.Text

/-!
# The natural order of names

`compare_names` of `src/inventory.rs`: a name is lowercased and cut into runs of digits and runs of
other characters. Two runs of digits compare as the numbers they write, digits come before anything
else, and other runs compare byte by byte. Lowercasing is a parameter.

* `chunks_split`: the chunks are the runs of the lowercased name
* `compareNames_eq_compareLex`: names compare chunk by chunk
* `compareNames_law`: a total preorder, whose equal names are those that are the same once the
  leading zeros of their numbers are gone
-/

namespace Thalovant

open Runs

/-! ## Comparing names -/

/-- `u8::is_ascii_digit`. -/
def isDigitByte (byte : UInt8) : Bool := 0x30 ≤ byte && byte ≤ 0x39

/-- `text.as_bytes()[0].is_ascii_digit()`. -/
def startsWithDigit (text : String) : Bool := (utf8 text).head?.any isDigitByte

/-- `str::cmp`. -/
def strCmp (x y : String) : Ordering := compare (utf8 x) (utf8 y)

/-- One step of the loop of `chunks`: a chunk begins where digits begin or end. -/
def pushChar (state : List String × Option Bool) (c : Char) : List String × Option Bool :=
  let now := c.isDigit
  let out := if state.2 ≠ some now then state.1 ++ [""] else state.1
  (out.modifyLast (·.push c), some now)

def chunks (lowercase : String → String) (s : String) : List String :=
  ((lowercase s).toList.foldl pushChar ([], none)).1

/-- What `compare_names` makes of two chunks at the same place. -/
def compareChunk (x y : String) : Ordering :=
  let nx := startsWithDigit x
  let ny := startsWithDigit y
  if nx && ny then
    let x := trimStartChar '0' x
    let y := trimStartChar '0' y
    (compare (utf8 x).length (utf8 y).length).then (strCmp x y)
  else if nx ≠ ny then compare ny nx
  else strCmp x y

/-- The loop over the chunks of both names: the first difference, and without one the number of
chunks. -/
def compareChunks (a b : List String) : Ordering :=
  match (a.zipWith compareChunk b).find? (· ≠ .eq) with
  | some compared => compared
  | none => compare a.length b.length

def compareNames (lowercase : String → String) (left right : String) : Ordering :=
  compareChunks (chunks lowercase left) (chunks lowercase right)

/-! ## The order -/

theorem compareChunks_eq_compareLex (a b : List String) :
    compareChunks a b = List.compareLex compareChunk a b := by
  induction a generalizing b with
  | nil => cases b <;> simp [compareChunks, List.compareLex, Nat.compare_eq_lt]
  | cons x a ih =>
    cases b with
    | nil => simp [compareChunks, List.compareLex, Nat.compare_eq_gt]
    | cons y b =>
      rw [List.compareLex_cons_cons, ← ih, compareChunks, List.zipWith_cons_cons, List.find?_cons]
      have hlength : compare (a.length + 1) (b.length + 1) = compare a.length b.length := by
        simp only [Nat.compare_eq_ite_lt, Nat.add_lt_add_iff_right]
      cases compareChunk x y <;> simp [compareChunks, hlength]

theorem compareNames_eq_compareLex (lowercase : String → String) (left right : String) :
    compareNames lowercase left right =
      List.compareLex compareChunk (chunks lowercase left) (chunks lowercase right) :=
  compareChunks_eq_compareLex _ _

/-- Is a chunk anything but a run of digits? -/
def isWord (x : String) : Bool := !startsWithDigit x

/-- What of a chunk is compared. -/
def significant (x : String) : String := if startsWithDigit x then trimStartChar '0' x else x

/-- How long the number of a chunk is. -/
def digitCount (x : String) : Nat := if startsWithDigit x then (utf8 (significant x)).length else 0

/-- Chunks compare by what they are, then by the length of their numbers, then by their bytes. -/
theorem compareChunk_eq_compareLex :
    compareChunk = compareLex (compareOn isWord)
      (compareLex (compareOn digitCount) (compareOn fun x => utf8 (significant x))) := by
  funext x y
  have hdigits : compare false true = .lt := rfl
  have hword : compare true false = .gt := rfl
  unfold compareChunk compareLex compareOn isWord digitCount significant strCmp
  cases hx : startsWithDigit x <;> cases hy : startsWithDigit y <;> simp [hx, hy, hdigits, hword]

instance : Std.TransCmp compareChunk := by
  rw [compareChunk_eq_compareLex]
  infer_instance

theorem compareChunk_eq_eq {x y : String} :
    compareChunk x y = .eq ↔
      startsWithDigit x = startsWithDigit y ∧ significant x = significant y := by
  rw [compareChunk_eq_compareLex, compareLex_eq_eq, compareLex_eq_eq]
  unfold compareOn
  rw [Std.LawfulEqOrd.compare_eq_iff_eq, Std.LawfulEqOrd.compare_eq_iff_eq,
    Std.LawfulEqOrd.compare_eq_iff_eq, utf8_inj]
  constructor
  · rintro ⟨hkind, -, hbytes⟩
    exact ⟨Bool.not_inj hkind, hbytes⟩
  · rintro ⟨hkind, hbytes⟩
    have hcount : digitCount x = digitCount y := by rw [digitCount, digitCount, hkind, hbytes]
    exact ⟨congrArg not hkind, hcount, hbytes⟩

/-! ## Chunks are runs -/

theorem utf8_eq_flatMap (s : String) : utf8 s = s.toList.flatMap String.utf8EncodeChar := by
  rw [utf8, ← String.utf8Encode_toList]
  simp [List.utf8Encode]

theorem isDigitByte_ofNat {n : Nat} (h : n < 256) :
    isDigitByte (UInt8.ofNat n) = decide (0x30 ≤ n ∧ n ≤ 0x39) := by
  simp [isDigitByte, UInt8.le_iff_toNat_le, Nat.mod_eq_of_lt h]

/-- The first byte of a character tells whether it is a digit. -/
theorem isDigitByte_utf8EncodeChar (c : Char) :
    (String.utf8EncodeChar c).head?.any isDigitByte = c.isDigit := by
  have hdigit : c.isDigit = decide (0x30 ≤ c.val.toNat ∧ c.val.toNat ≤ 0x39) := by
    simp [Char.isDigit, UInt32.le_iff_toNat_le]
  rw [hdigit]
  unfold String.utf8EncodeChar
  dsimp only
  split_ifs <;>
    rw [List.head?_cons, Option.any_some, isDigitByte_ofNat (by omega), decide_eq_decide] <;>
    omega

theorem startsWithDigit_eq (x : String) : startsWithDigit x = x.toList.head?.any Char.isDigit := by
  rw [startsWithDigit, utf8_eq_flatMap]
  cases x.toList with
  | nil => rfl
  | cons c cs =>
    rw [List.flatMap_cons, List.head?_append_of_ne_nil _ String.utf8EncodeChar_ne_nil,
      isDigitByte_utf8EncodeChar]
    rfl

/-- What the loop has after some of the characters. -/
inductive ChunksOf : List Char → List String × Option Bool → Prop
  | start : ChunksOf [] ([], none)
  | run {init : List String} {chunk : String} {now : Bool}
      (split : Split Char.isDigit ((init ++ [chunk]).map String.toList))
      (digits : ∀ c ∈ chunk.toList, c.isDigit = now) :
      ChunksOf ((init ++ [chunk]).map String.toList).flatten (init ++ [chunk], some now)

theorem ChunksOf.split {seen : List Char} {state : List String × Option Bool}
    (h : ChunksOf seen state) : Split Char.isDigit (state.1.map String.toList) := by
  cases h with
  | start => exact split_nil
  | run split _ => exact split

theorem ChunksOf.flatten {seen : List Char} {state : List String × Option Bool}
    (h : ChunksOf seen state) : (state.1.map String.toList).flatten = seen := by
  cases h <;> rfl

/-- A chunk begins. -/
theorem ChunksOf.begin {init : List String} {c : Char}
    (split : Split Char.isDigit (init.map String.toList))
    (apart : ∀ x ∈ (init.map String.toList).getLast?, Apart Char.isDigit x [c]) :
    ChunksOf ((init.map String.toList).flatten ++ [c])
      (init ++ [String.singleton c], some c.isDigit) := by
  have hsplit := split_append_singleton.mpr ⟨split, isRun_singleton c, apart⟩
  have hdigits : ∀ d ∈ (String.singleton c).toList, d.isDigit = c.isDigit := by
    intro d hd
    rw [String.toList_singleton, List.mem_singleton] at hd
    rw [hd]
  have h : ChunksOf _ (init ++ [String.singleton c], some c.isDigit) :=
    .run (by simpa using hsplit) hdigits
  simpa using h

theorem chunksOf_pushChar {seen : List Char} {state : List String × Option Bool}
    (h : ChunksOf seen state) (c : Char) : ChunksOf (seen ++ [c]) (pushChar state c) := by
  cases h with
  | start => exact @ChunksOf.begin [] c split_nil (by simp)
  | @run init chunk now split digits =>
    by_cases hnow : now = c.isDigit
    · -- the last chunk goes on
      have hpush : pushChar (init ++ [chunk], some now) c =
          (init ++ [chunk.push c], some c.isDigit) := by
        simp only [pushChar, hnow, ne_eq, not_true_eq_false, if_false, List.modifyLast_concat]
      rw [hpush]
      rw [List.map_append, List.map_singleton] at split
      have hsplit := split.push (a := c) fun d hd => (digits d hd).trans hnow
      have hdigits : ∀ d ∈ (chunk.push c).toList, d.isDigit = c.isDigit := by
        intro d hd
        rw [String.toList_push, List.mem_append, List.mem_singleton] at hd
        rcases hd with hold | rfl
        · exact (digits d hold).trans hnow
        · rfl
      have h : ChunksOf _ (init ++ [chunk.push c], some c.isDigit) :=
        .run (by simpa using hsplit) hdigits
      simpa using h
    · have hpush : pushChar (init ++ [chunk], some now) c =
          (init ++ [chunk] ++ [String.singleton c], some c.isDigit) := by
        have hne : some now ≠ some c.isDigit := fun h => hnow (Option.some.inj h)
        simp only [pushChar, ne_eq, hne, not_false_eq_true, if_true, List.modifyLast_concat]
        rfl
      rw [hpush]
      refine ChunksOf.begin split ?_
      intro x hx d hd e he
      rw [List.map_append, List.map_singleton, List.getLast?_concat, Option.mem_some_iff] at hx
      rw [List.mem_singleton.mp he, digits d (hx ▸ hd)]
      exact hnow

/-- **Chunks.** They are the runs of the lowercased name. -/
theorem chunksOf_chunks (lowercase : String → String) (s : String) :
    Split Char.isDigit ((chunks lowercase s).map String.toList) ∧
      ((chunks lowercase s).map String.toList).flatten = (lowercase s).toList := by
  have hrun : ∀ (cs seen : List Char) (state : List String × Option Bool), ChunksOf seen state →
      ChunksOf (seen ++ cs) (cs.foldl pushChar state) := by
    intro cs
    induction cs with
    | nil =>
      intro seen state h
      rwa [List.append_nil]
    | cons c cs ih =>
      intro seen state h
      rw [List.append_cons]
      exact ih _ _ (chunksOf_pushChar h c)
  have h := hrun (lowercase s).toList [] ([], none) .start
  exact ⟨h.split, h.flatten⟩

/-! ## Leading zeros -/

/-- What is left of a text without the leading zeros of its numbers, of a run of zeros alone one
zero. `inNumber`: a digit has been kept just before. -/
def dropZeros (inNumber : Bool) : List Char → List Char
  | [] => []
  | c :: rest =>
    if c = '0' ∧ inNumber = false ∧ rest.head?.any Char.isDigit then dropZeros false rest
    else c :: dropZeros c.isDigit rest

/-- A text without the leading zeros of its numbers. -/
def stripLeadingZeros (text : String) : String := String.ofList (dropZeros false text.toList)

example : stripLeadingZeros "007-000x10" = "7-0x10" := by decide +kernel

/-- A run of digits without its leading zeros, another run as it is. -/
def shortest (run : List Char) : List Char :=
  if run.head?.any Char.isDigit then
    if run.dropWhile (· = '0') = [] then ['0'] else run.dropWhile (· = '0')
  else run

theorem dropZeros_true_append {run : List Char} (h : ∀ c ∈ run, c.isDigit = true)
    (rest : List Char) : dropZeros true (run ++ rest) = run ++ dropZeros true rest := by
  induction run with
  | nil => rfl
  | cons c run ih =>
    have hdigit := h c List.mem_cons_self
    rw [List.cons_append, dropZeros, if_neg (by simp), hdigit,
      ih fun d hd => h d (List.mem_cons_of_mem _ hd), List.cons_append]

/-- Past a number nothing is left to say about it. -/
theorem dropZeros_true {rest : List Char} (h : rest.head?.any Char.isDigit = false) :
    dropZeros true rest = dropZeros false rest := by
  cases rest with
  | nil => rfl
  | cons c rest =>
    have hne : c ≠ '0' := by
      rintro rfl
      simp at h
    rw [dropZeros, dropZeros, if_neg (fun hc => hne hc.1), if_neg (fun hc => hne hc.1)]

theorem dropZeros_word {run : List Char} (h : ∀ c ∈ run, c.isDigit = false) (rest : List Char) :
    dropZeros false (run ++ rest) = run ++ dropZeros false rest := by
  induction run with
  | nil => rfl
  | cons c run ih =>
    have hword := h c List.mem_cons_self
    have hne : c ≠ '0' := by
      rintro rfl
      exact absurd hword (by decide)
    rw [List.cons_append, dropZeros, if_neg (fun hc => hne hc.1), hword,
      ih fun d hd => h d (List.mem_cons_of_mem _ hd), List.cons_append]

theorem dropZeros_number {run : List Char} (hne : run ≠ []) (h : ∀ c ∈ run, c.isDigit = true)
    {rest : List Char} (hrest : rest.head?.any Char.isDigit = false) :
    dropZeros false (run ++ rest) = shortest run ++ dropZeros false rest := by
  induction run with
  | nil => exact absurd rfl hne
  | cons c run ih =>
    have hdigit := h c List.mem_cons_self
    have htail : ∀ d ∈ run, d.isDigit = true := fun d hd => h d (List.mem_cons_of_mem _ hd)
    by_cases hzero : c = '0'
    · cases run with
      | nil =>
        rw [List.singleton_append, dropZeros, if_neg (by simp [hrest]), hdigit, dropZeros_true hrest,
          hzero]
        rfl
      | cons d run =>
        have hd := htail d List.mem_cons_self
        have hshort : shortest (c :: d :: run) = shortest (d :: run) := by
          simp [shortest, hd, hzero]
        rw [List.cons_append, dropZeros, if_pos (by simp [hzero, hd]), hshort]
        exact ih (List.cons_ne_nil _ _) htail
    · have hshort : shortest (c :: run) = c :: run := by simp [shortest, hdigit, hzero]
      rw [List.cons_append, dropZeros, if_neg (fun hc => hzero hc.1), hdigit,
        dropZeros_true_append htail, dropZeros_true hrest, hshort, List.cons_append]

/-- The leading zeros go run by run. -/
theorem dropZeros_flatten {runs : List (List Char)} (h : Split Char.isDigit runs) :
    dropZeros false runs.flatten = runs.flatMap shortest := by
  induction runs with
  | nil => rfl
  | cons run runs ih =>
    obtain ⟨hne, hclass⟩ := h.isRun run List.mem_cons_self
    obtain ⟨first, hfirst⟩ := List.exists_mem_of_ne_nil run hne
    rw [List.flatten_cons, List.flatMap_cons, ← ih h.of_cons]
    cases hdigit : first.isDigit with
    | true =>
      refine dropZeros_number hne (fun c hc => (hclass c hc first hfirst).trans hdigit) ?_
      rw [Option.any_eq_false]
      intro c hc
      exact Bool.not_eq_true _ ▸ fun hnext =>
        h.ne_head_flatten hfirst hc (hdigit.trans hnext.symm)
    | false =>
      have hword : ∀ c ∈ run, c.isDigit = false := fun c hc =>
        (hclass c hc first hfirst).trans hdigit
      have hshort : shortest run = run := by
        obtain ⟨c, run, rfl⟩ := List.exists_cons_of_ne_nil hne
        simp [shortest, hword c List.mem_cons_self]
      rw [dropZeros_word hword, hshort]

/-- The shortest form of a run is a run of the same class. -/
theorem shortest_class {run : List Char} (h : IsRun Char.isDigit run) :
    shortest run ≠ [] ∧ ∀ a ∈ shortest run, ∃ b ∈ run, a.isDigit = b.isDigit := by
  obtain ⟨c, rest, rfl⟩ := List.exists_cons_of_ne_nil h.1
  unfold shortest
  split
  · next hdigit =>
    split
    · refine ⟨List.cons_ne_nil _ _, fun a ha => ⟨c, List.mem_cons_self, ?_⟩⟩
      rw [List.mem_singleton.mp ha]
      exact hdigit.symm
    · next hne => exact ⟨hne, fun a ha => ⟨a, (List.dropWhile_sublist _).subset ha, rfl⟩⟩
  · exact ⟨h.1, fun a ha => ⟨a, ha, rfl⟩⟩

theorem head_shortest {run : List Char} (h : IsRun Char.isDigit run) :
    (shortest run).head?.any Char.isDigit = run.head?.any Char.isDigit := by
  obtain ⟨hne, hclass⟩ := shortest_class h
  obtain ⟨a, short, hshort⟩ := List.exists_cons_of_ne_nil hne
  obtain ⟨c, rest, rfl⟩ := List.exists_cons_of_ne_nil h.1
  obtain ⟨b, hb, hab⟩ := hclass a (hshort ▸ List.mem_cons_self)
  rw [hshort]
  exact hab.trans (h.2 b hb c List.mem_cons_self)

/-- The shortest form of a number tells what is left without the zeros. -/
theorem shortest_inj_of_digits {x y : List Char} (hx : x.head?.any Char.isDigit = true)
    (hy : y.head?.any Char.isDigit = true) :
    shortest x = shortest y ↔ x.dropWhile (· = '0') = y.dropWhile (· = '0') := by
  have hzero : ∀ cs : List Char, cs.dropWhile (· = '0') ≠ ['0'] := by
    intro cs hcs
    have hhead := List.head?_dropWhile_not (· = '0') cs
    rw [hcs] at hhead
    simp at hhead
  unfold shortest
  rw [if_pos hx, if_pos hy]
  split <;> split
  · next hx hy => simp only [hx, hy]
  · next hx hy => rw [hx]; exact ⟨fun h => absurd h.symm (hzero y), fun h => absurd h.symm hy⟩
  · next hx hy => rw [hy]; exact ⟨fun h => absurd h (hzero x), fun h => absurd h hx⟩
  · rfl

/-- **Equal chunks.** They have the same shortest form. -/
theorem compareChunk_eq_iff_shortest {x y : String} (hx : IsRun Char.isDigit x.toList)
    (hy : IsRun Char.isDigit y.toList) :
    compareChunk x y = .eq ↔ shortest x.toList = shortest y.toList := by
  rw [compareChunk_eq_eq, startsWithDigit_eq, startsWithDigit_eq]
  have hkinds : shortest x.toList = shortest y.toList →
      x.toList.head?.any Char.isDigit = y.toList.head?.any Char.isDigit := by
    intro h
    rw [← head_shortest hx, h, head_shortest hy]
  rw [← and_iff_right_of_imp hkinds]
  refine and_congr_right fun hkind => ?_
  rw [significant, significant, startsWithDigit_eq, startsWithDigit_eq, ← hkind]
  cases hdigit : x.toList.head?.any Char.isDigit with
  | true =>
    rw [if_pos rfl, if_pos rfl, trimStartChar, trimStartChar, String.ofList_inj,
      shortest_inj_of_digits hdigit (hkind ▸ hdigit)]
  | false =>
    have hword : y.toList.head?.any Char.isDigit = false := hkind ▸ hdigit
    rw [if_neg (by decide), if_neg (by decide), shortest, shortest, hdigit, hword,
      if_neg (by decide), if_neg (by decide), String.toList_inj]

/-! ## The law -/

/-- What the chunks of a name are without leading zeros, one after the other. -/
theorem flatMap_shortest_chunks (lowercase : String → String) (s : String) :
    ((chunks lowercase s).map String.toList).flatMap shortest =
      (stripLeadingZeros (lowercase s)).toList := by
  obtain ⟨hsplit, hflatten⟩ := chunksOf_chunks lowercase s
  rw [← dropZeros_flatten hsplit, hflatten, stripLeadingZeros, String.toList_ofList]

/-- **Equal names.** They are the same once lowercased and without leading zeros. -/
theorem compareNames_eq_eq (lowercase : String → String) (a b : String) :
    compareNames lowercase a b = .eq ↔
      stripLeadingZeros (lowercase a) = stripLeadingZeros (lowercase b) := by
  obtain ⟨ha, -⟩ := chunksOf_chunks lowercase a
  obtain ⟨hb, -⟩ := chunksOf_chunks lowercase b
  have hchunk : ∀ x ∈ chunks lowercase a, ∀ y ∈ chunks lowercase b,
      compareChunk x y = .eq ↔ (shortest ∘ String.toList) x = (shortest ∘ String.toList) y :=
    fun x hx y hy => compareChunk_eq_iff_shortest (ha.isRun _ (List.mem_map_of_mem hx))
      (hb.isRun _ (List.mem_map_of_mem hy))
  rw [compareNames_eq_compareLex, compareLex_eq_eq_iff hchunk, ← List.map_map, ← List.map_map,
    ← ha.flatMap_inj hb fun run => shortest_class, flatMap_shortest_chunks,
    flatMap_shortest_chunks, String.toList_inj]

/-- **The order of names.** Comparing a name with itself finds no difference, comparing the other way
round finds the opposite, and what is at most a second name is at most what that one is at most.
Names between which there is no difference are those that are the same once lowercased and without
the leading zeros of their numbers. -/
theorem compareNames_law (lowercase : String → String) (a b c : String) :
    compareNames lowercase a a = .eq ∧
    compareNames lowercase b a = (compareNames lowercase a b).swap ∧
    ((compareNames lowercase a b).isLE → (compareNames lowercase b c).isLE →
      (compareNames lowercase a c).isLE) ∧
    (compareNames lowercase a b = .eq ↔
      stripLeadingZeros (lowercase a) = stripLeadingZeros (lowercase b)) := by
  refine ⟨?_, ?_, ?_, compareNames_eq_eq lowercase a b⟩
  · rw [compareNames_eq_compareLex]
    exact Std.ReflCmp.compare_self
  · rw [compareNames_eq_compareLex, compareNames_eq_compareLex]
    exact Std.OrientedCmp.eq_swap
  · rw [compareNames_eq_compareLex, compareNames_eq_compareLex, compareNames_eq_compareLex]
    exact Std.TransCmp.isLE_trans

/-- Lowercasing of names in ASCII. -/
def lowercaseAscii (name : String) : String := String.ofList (name.toList.map Char.toLower)

/-- Numbers of any length compare as numbers, whatever zeros they lead with. -/
theorem compareNames_law_lamps :
    (compareNames lowercaseAscii "Lamp 2" "lamp 010").isLE ∧
    compareNames lowercaseAscii "lamp 10" "Lamp 010" = .eq := by
  obtain ⟨-, -, htrans, -⟩ := compareNames_law lowercaseAscii "Lamp 2" "lamp 10" "lamp 010"
  obtain ⟨-, -, -, hsame⟩ := compareNames_law lowercaseAscii "lamp 10" "Lamp 010" ""
  have hleft : (compareNames lowercaseAscii "Lamp 2" "lamp 10").isLE := by decide +kernel
  have hright : (compareNames lowercaseAscii "lamp 10" "lamp 010").isLE := by decide +kernel
  have hstripped : stripLeadingZeros (lowercaseAscii "lamp 10") =
      stripLeadingZeros (lowercaseAscii "Lamp 010") := by decide +kernel
  exact ⟨htrans hleft hright, hsame.mpr hstripped⟩

end Thalovant
