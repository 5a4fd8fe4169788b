import BoiOS.Library.Buffer
import BoiOS.Task.SystemCommand

/-! The path that the two system calls build for a program: `0:/` and the name, in a buffer of 128
characters. The name is cut to the size of the whole buffer, the three characters in front of it
not counted. -/
namespace BoiOS
open Library.Buffer

/-! The copies of string/string.c, as the stores that they make. A source is the list of its
characters; behind it there are zeros. -/

def strcpyStores : (dest : Nat) → (src : List UInt8) → List (Nat × UInt8)
  | dest, [] => [(dest, 0)]
  | dest, c :: src => if c = 0 then [(dest, 0)] else (dest, c) :: strcpyStores (dest + 1) src

def strncpyStoresLoop : (count dest : Nat) → (src : List UInt8) → List (Nat × UInt8)
  | 0, dest, _ => [(dest, 0)]
  | _ + 1, dest, [] => [(dest, 0)]
  | count + 1, dest, c :: src =>
      if c = 0 then [(dest, 0)] else (dest, c) :: strncpyStoresLoop count (dest + 1) src

def strncpyStores (dest : Nat) (src : List UInt8) (count : Nat) : List (Nat × UInt8) :=
  strncpyStoresLoop (count - 1) dest src

theorem strcpyStores_eq (dest : Nat) (src : List UInt8) :
    strcpyStores dest src = storesFrom dest (cString src ++ [0]) := by
  induction src generalizing dest with
  | nil => rfl
  | cons c src ih =>
    unfold strcpyStores cString
    by_cases hc : c = 0
    · rw [if_pos hc, hc]
      rfl
    · rw [if_neg hc, ih, List.takeWhile_cons_of_pos (by simpa using hc)]
      rfl

theorem strncpyStores_eq (dest : Nat) (src : List UInt8) (count : Nat) :
    strncpyStores dest src count = storesFrom dest ((cString src).take (count - 1) ++ [0]) := by
  unfold strncpyStores
  generalize count - 1 = room
  induction room generalizing dest src with
  | zero => rfl
  | succ room ih =>
    cases src with
    | nil => rfl
    | cons c src =>
      unfold strncpyStoresLoop cString
      by_cases hc : c = 0
      · rw [if_pos hc, hc]
        rfl
      · rw [if_neg hc, ih, List.takeWhile_cons_of_pos (by simpa using hc)]
        rfl

/-! The path. -/

def pathPrefix : List UInt8 := [48, 58, 47]

/-- What `isr80h_command6_process_load_start` stores into `path`; the name of the caller was copied
to `filename` before. -/
def isr80hCommand6PathStores (name : List UInt8) : List (Nat × UInt8) :=
  strcpyStores 0 pathPrefix ++ strcpyStores 3 (strncpy name boiosMaxPath)

/-- What `isr80h_command7_invoke_system_command` stores into `path`. -/
def isr80hCommand7PathStores (programName : List UInt8) : List (Nat × UInt8) :=
  strcpyStores 0 pathPrefix ++ strncpyStores 3 programName boiosMaxPath

/-- The stores stay in the buffer and leave the path of the program in it, as far as it fits. -/
structure BuildsPath (stores : List (Nat × UInt8)) (buffer name : List UInt8) : Prop where
  fits : Fits boiosMaxPath stores
  path : cString (applyStores stores buffer) =
    (programPath (cString name)).take (boiosMaxPath - 1)

def pathStores (name : List UInt8) : List (Nat × UInt8) :=
  storesFrom 0 (pathPrefix ++ [0]) ++
    storesFrom 3 ((cString name).take (boiosMaxPath - 1) ++ [0])

theorem isr80hCommand6PathStores_eq (name : List UInt8) :
    isr80hCommand6PathStores name = pathStores name := by
  unfold isr80hCommand6PathStores pathStores
  have hstring : cString (strncpy name boiosMaxPath) = (cString name).take (boiosMaxPath - 1) := by
    rw [cString_of_nonzero (strncpy_nonzero name boiosMaxPath), strncpy_eq]
  rw [strcpyStores_eq, strcpyStores_eq, hstring]
  rfl

theorem isr80hCommand7PathStores_eq (programName : List UInt8) :
    isr80hCommand7PathStores programName = pathStores programName := by
  unfold isr80hCommand7PathStores pathStores
  rw [strcpyStores_eq, strncpyStores_eq]
  rfl

theorem pathStores_fits_iff (name : List UInt8) :
    Fits boiosMaxPath (pathStores name) ↔ (cString name).length ≤ 124 := by
  unfold pathStores boiosMaxPath
  rw [fits_append, fits_storesFrom_iff (by simp), fits_storesFrom_iff (by simp)]
  simp [pathPrefix]
  omega

theorem applyStores_pathStores {name buffer : List UInt8} (hbuffer : buffer.length = boiosMaxPath)
    (hname : (cString name).length ≤ 124) :
    cString (applyStores (pathStores name) buffer) = programPath (cString name) := by
  have hlength : buffer.length = 128 := hbuffer
  have hcut : (cString name).take (boiosMaxPath - 1) = cString name := by
    refine List.take_of_length_le ?_
    unfold boiosMaxPath
    omega
  have hprefix : applyStores (storesFrom 0 (pathPrefix ++ [0])) buffer =
      pathPrefix ++ 0 :: buffer.drop 4 := by
    rw [applyStores_storesFrom (by simp [pathPrefix]; omega)]
    simp [pathPrefix]
  have hname' : applyStores (storesFrom 3 (cString name ++ [0])) (pathPrefix ++ 0 :: buffer.drop 4) =
      programPath (cString name) ++
        0 :: (pathPrefix ++ 0 :: buffer.drop 4).drop (3 + (cString name ++ [0]).length) := by
    rw [applyStores_storesFrom (by simp [pathPrefix]; omega)]
    simp [pathPrefix, programPath]
  unfold pathStores
  rw [applyStores_append, hprefix, hcut, hname',
    cString_append (programPath_nonzero (cString_nonzero name))]

theorem buildsPath_iff {name buffer : List UInt8} (hbuffer : buffer.length = boiosMaxPath) :
    BuildsPath (pathStores name) buffer name ↔ (cString name).length ≤ 124 := by
  refine ⟨fun h => (pathStores_fits_iff name).mp h.fits, fun hname => ?_⟩
  refine ⟨(pathStores_fits_iff name).mpr hname, ?_⟩
  rw [applyStores_pathStores hbuffer hname, List.take_of_length_le]
  unfold programPath boiosMaxPath
  simp
  omega

/-- Both system calls build the path within its buffer exactly if the name has at most 124
characters. Without a name the second one fails before it builds a path. -/
theorem program_path_in_buffer_iff {buffer : List UInt8} (hbuffer : buffer.length = boiosMaxPath)
    (name : List UInt8) :
    (BuildsPath (isr80hCommand6PathStores name) buffer name ↔ (cString name).length ≤ 124) ∧
      (strlen name ≠ 0 → (BuildsPath (isr80hCommand7PathStores name) buffer name ↔
        (cString name).length ≤ 124)) := by
  rw [isr80hCommand6PathStores_eq, isr80hCommand7PathStores_eq]
  exact ⟨buildsPath_iff hbuffer, fun _ => buildsPath_iff hbuffer⟩

def emptyPath : List UInt8 := List.replicate 128 0

def longName (count : Nat) : List UInt8 := List.replicate count 97

theorem program_path_in_buffer_oneLetter :
    (BuildsPath (isr80hCommand6PathStores (longName 1)) emptyPath (longName 1) ↔
        (cString (longName 1)).length ≤ 124) ∧
      (strlen (longName 1) ≠ 0 →
        (BuildsPath (isr80hCommand7PathStores (longName 1)) emptyPath (longName 1) ↔
          (cString (longName 1)).length ≤ 124)) :=
  program_path_in_buffer_iff (by decide +kernel) (longName 1)

theorem program_path_not_always_in_buffer :
    ¬ ∀ buffer name : List UInt8, buffer.length = boiosMaxPath →
      BuildsPath (isr80hCommand6PathStores name) buffer name ∧
        (strlen name ≠ 0 → BuildsPath (isr80hCommand7PathStores name) buffer name) := by
  intro hall
  have hbuilt := (hall emptyPath (longName 125) (by decide +kernel)).1
  rw [isr80hCommand6PathStores_eq, buildsPath_iff (by decide +kernel)] at hbuilt
  exact absurd hbuilt (by decide +kernel)

end BoiOS
