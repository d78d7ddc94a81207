import LinkedJson.CommandLine.World
import LinkedJson.Proofs.Files.Disk
import Mathlib.Data.Set.Subsingleton

/-!
What a world keeps while notices are reported.

Opening a log and writing to it change no file but that of the log, and print nothing.
-/

namespace LinkedJson

open Files Disk

/-! ### Opening a log -/

namespace Log

/-- A file is written only where the log can be written, and only if it is opened. -/
lemma keptBut_openAt {d d' : Disk} {path : String} {r : Except FileError Unit}
    (h : openAt d path = (r, d')) :
    KeptBut {l | r = .ok () ∧ d'.writable (d'.absolute path) = .ok l} d d' := by
  rw [openAt] at h
  generalize hmade : (if Path.dirName path = "" then (.ok (), d)
    else d.makeDirectories (Path.dirName path) : Except FileError Unit × Disk) = made at h
  have hkept (places : Set Location) : KeptBut places d made.2 := by
    rw [← hmade]
    split
    · exact .refl places d
    · exact keptBut_makeDirectories places d _
  obtain ⟨_ | _, made⟩ := made
  · cases h
    exact hkept _
  · simp only at h
    rcases hwrite : made.append (made.absolute path) [] with e | opened
    · rw [hwrite] at h
      cases h
      exact hkept _
    · rw [hwrite] at h
      cases h
      obtain ⟨l, hl, -, hopened, hways⟩ := write_eq_ok hwrite
      have hwritable : d'.writable (d'.absolute path) = .ok l := by
        rw [absolute_congr hopened.root hopened.here]
        exact hways.writable hl
      exact (hkept _).trans (hopened.mono (Set.singleton_subset_iff.mpr ⟨rfl, hwritable⟩))

def Opened.places (o : Opened) : Set Location :=
  {l | ∃ path, o.path = .ok (some path) ∧ o.disk.writable (o.disk.absolute path) = .ok l}

lemma Opened.subsingleton_places (o : Opened) : o.places.Subsingleton := by
  rintro l ⟨path, hpath, hl⟩ l' ⟨path', hpath', hl'⟩
  obtain rfl := Option.some.inj (Except.ok.inj (hpath.symm.trans hpath'))
  exact Except.ok.inj (hl.symm.trans hl')

lemma keptBut_openFirst (asked : String) (d : Disk) (paths : List String) :
    KeptBut (openFirst asked d paths).places d (openFirst asked d paths).disk := by
  induction paths generalizing d with
  | nil => exact .refl _ d
  | cons path rest ih =>
    rw [openFirst]
    split
    · next d' htried =>
      refine (keptBut_openAt htried).mono ?_
      rintro l ⟨-, hwritable⟩
      exact ⟨path, rfl, hwritable⟩
    · next htried => exact (keptBut_openAt htried).mono fun l h => nomatch h.1
    · next e d' _ htried =>
      have hrest := ih d'
      simp only
      generalize openFirst asked d' rest = o at hrest ⊢
      exact ((keptBut_openAt htried).mono fun l h => nomatch h.1).trans hrest

lemma path_openFirst_error {asked : String} {d : Disk} {paths : List String} {a : Accident}
    (h : (openFirst asked d paths).path = .error a) : a = .nullPath := by
  induction paths generalizing d with
  | nil => cases h
  | cons path rest ih =>
    rw [openFirst] at h
    split at h
    · cases h
    · exact (Except.error.inj h).symm
    · exact ih h

lemma path_openFile_error {s : Shelters} {d : Disk} {asked : String} {a : Accident}
    (h : (openFile s d asked).path = .error a) : a = .nullPath := by
  rw [openFile] at h
  split at h
  · cases h
  · exact path_openFirst_error h

lemma keptBut_openFile (s : Shelters) (d : Disk) (asked : String) :
    KeptBut (openFile s d asked).places d (openFile s d asked).disk := by
  rw [openFile]
  split
  · exact .refl _ d
  · exact keptBut_openFirst asked d _

end Log

/-! ### Worlds -/

namespace CommandLine.World

variable {w w' w'' : World} {places : Set Location}

/-- A later world, in which no file has changed but at some places, and nothing has been printed. -/
structure Follows (places : Set Location) (w w' : World) : Prop where
  disk : KeptBut places w.disk w'.disk
  output : w'.output = w.output

namespace Follows

lemma refl (places : Set Location) (w : World) : Follows places w w := ⟨.refl _ _, rfl⟩

lemma trans (h : Follows places w w') (h' : Follows places w' w'') : Follows places w w'' :=
  ⟨h.disk.trans h'.disk, h'.output.trans h.output⟩

lemma mono {places' : Set Location} (h : Follows places w w') (hsub : places ⊆ places') :
    Follows places' w w' := ⟨h.disk.mono hsub, h.output⟩

end Follows

lemma follows_say (places : Set Location) (w : World) (message : String) :
    Follows places w (w.say message) := ⟨.refl _ _, rfl⟩

def logPlaces (w : World) : Set Location :=
  {l | ∃ path, w.logFile = some path ∧ w.disk.writable path = .ok l}

/-- A line in the log is written where the log is, and changes no way. -/
lemma logged_spec (w : World) (line : String) :
    KeptBut w.logPlaces w.disk (w.logged line) ∧ SameWays w.disk (w.logged line) := by
  rw [logged]
  rcases hfile : w.logFile with _ | path
  · exact ⟨.refl _ _, .refl _⟩
  · simp only
    rcases hwrite : w.disk.append path (Text.Utf8.encode (line ++ "\n")) with e | d
    · exact ⟨.refl _ _, .refl _⟩
    · obtain ⟨l, hl, -, hkept, hways⟩ := write_eq_ok hwrite
      exact ⟨hkept.mono (Set.singleton_subset_iff.mpr ⟨path, hfile, hl⟩), hways⟩

lemma logPlaces_keep (w : World) (n : Notice) : (w.keep n).logPlaces = w.logPlaces := by
  rw [keep]
  split
  · have hways := (w.logged_spec n.line).2
    ext l
    constructor
    · rintro ⟨path, hfile, hl⟩
      exact ⟨path, hfile, hways.symm.writable hl⟩
    · rintro ⟨path, hfile, hl⟩
      exact ⟨path, hfile, hways.writable hl⟩
  · rfl

/-- A world that follows, and whose log is written at the same places if there is one. So what is
reported next changes no other file. -/
structure Continues (places : Set Location) (w w' : World) : Prop extends Follows places w w' where
  log : w'.logPlaces ⊆ places

namespace Continues

lemma mono {places' : Set Location} (h : Continues places w w') (hsub : places ⊆ places') :
    Continues places' w w' := ⟨h.toFollows.mono hsub, h.log.trans hsub⟩

lemma keep (h : Continues places w w') (n : Notice) : Continues places w (w'.keep n) := by
  refine ⟨h.toFollows.trans ?_, (w'.logPlaces_keep n).subset.trans h.log⟩
  rw [World.keep]
  split
  · exact ⟨(w'.logged_spec n.line).1.mono h.log, rfl⟩
  · exact .refl places w'

lemma keepAll (h : Continues places w w') (ns : List Notice) :
    Continues places w (w'.keepAll ns) := by
  induction ns generalizing w' with
  | nil => exact h
  | cons n rest ih => exact ih (h.keep n)

end Continues

/-- A world with a configuration in one file and triples in another. -/
def ofFiles (config triples : String) : World where
  disk := { root := "", nodes := [
    (["c.json"], .file (Text.Utf8.encode config)), (["in.nt"], .file (Text.Utf8.encode triples))] }
  shelters := ⟨"tmp", "home"⟩

end CommandLine.World

end LinkedJson
