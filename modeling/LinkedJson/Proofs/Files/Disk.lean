import LinkedJson.Files.Disk
import Mathlib.Data.Set.Insert
import Mathlib.Tactic.Lemma

/-!
What a disk keeps when files are written and directories are made.

A path leads through directories only. So a file that is written changes the way of no path, and
what was written is read back. Directories are made where there was nothing.
-/

namespace LinkedJson.Files

/-! ### The last part of a path -/

lemma Path.exists_getLast?_splitSlashes {cs : List Char} (hne : cs ≠ [])
    (hend : cs.getLast? ≠ some '/') : ∃ part ≠ [], (splitSlashes cs).getLast? = some part := by
  induction cs with
  | nil => exact (hne rfl).elim
  | cons c rest ih =>
    rcases rest with _ | ⟨c', rest⟩
    · have hc : c ≠ '/' := by simpa using hend
      simp [splitSlashes, hc]
    · obtain ⟨part, hpart, hlast⟩ := ih (by simp) (by rwa [List.getLast?_cons_cons] at hend)
      rw [splitSlashes]
      generalize splitSlashes (c' :: rest) = parts at hlast
      rcases parts with _ | ⟨first, parts⟩
      · simp
      · by_cases hc : c = '/' <;> rcases parts with _ | ⟨second, parts⟩ <;>
          simp_all [List.getLast?_cons_cons]

lemma Path.exists_getLast?_parts {path : String} (hne : path ≠ "")
    (hend : path.toList.getLast? ≠ some '/') :
    ∃ last ≠ "", (parts path).getLast? = some last := by
  obtain ⟨part, hpart, hlast⟩ :=
    exists_getLast?_splitSlashes (mt String.toList_eq_nil_iff.mp hne) hend
  exact ⟨String.ofList part, by simpa using hpart, by rw [parts, List.getLast?_map, hlast]; rfl⟩

namespace Disk

variable {d d' d'' : Disk} {l l' here : Location} {path : String} {bytes : List UInt8}
  {parts : List String} {places places' : Set Location}

/-! ### Nodes and files -/

lemma node?_put (hl : l ≠ []) (d : Disk) (n : Node) (l' : Location) :
    (d.put l n).node? l' = if l' = l then some n else d.node? l' := by
  by_cases hroot : l' = []
  · simp [node?, hroot, hl.symm]
  -- the first entry of a location counts, and entries keep their order
  have hreplaced (nodes : List (Location × Node)) :
      ((nodes.map fun p => if p.1 = l then (l, n) else p).find? (·.1 = l')).map (·.2) =
        if l' = l then (if nodes.any (·.1 = l) then some n else none)
        else (nodes.find? (·.1 = l')).map (·.2) := by
    induction nodes with
    | nil => simp
    | cons p rest ih =>
      rw [List.map_cons, List.find?_cons, List.any_cons, List.find?_cons]
      by_cases hp : p.1 = l
      · subst hp
        by_cases hl' : l' = p.1
        · simp [hl']
        · simpa [hl', Ne.symm hl'] using ih
      · rw [decide_eq_false hp, Bool.false_or, if_neg hp]
        by_cases hp' : p.1 = l'
        · simp [hp', hp' ▸ hp]
        · simpa [hp'] using ih
  simp only [node?, if_neg hroot, put]
  split
  · next hany => rw [hreplaced, if_pos hany]
  · next hany =>
    have hnone : d.nodes.find? (·.1 = l) = none :=
      List.find?_eq_none.mpr fun p hp hpl => hany (List.any_eq_true.mpr ⟨p, hp, hpl⟩)
    rw [List.find?_append]
    by_cases hl' : l' = l
    · subst hl'
      simp [hnone]
    · simp [hl', Ne.symm hl']

def fileAt? (d : Disk) (l : Location) : Option (List UInt8) :=
  match d.node? l with
  | some (.file bytes) => some bytes
  | _ => none

lemma fileAt?_put_file (hl : l ≠ []) :
    (d.put l (.file bytes)).fileAt? l' = if l' = l then some bytes else d.fileAt? l' := by
  rw [fileAt?, node?_put hl, fileAt?]
  by_cases h : l' = l <;> simp [h]

/-- Files have changed at some places at most; directories may have been made. -/
structure KeptBut (places : Set Location) (d d' : Disk) : Prop where
  root : d'.root = d.root
  here : d'.here = d.here
  files : ∀ l ∉ places, d'.fileAt? l = d.fileAt? l

namespace KeptBut

lemma refl (places : Set Location) (d : Disk) : KeptBut places d d := ⟨rfl, rfl, fun _ _ => rfl⟩

lemma trans (h : KeptBut places d d') (h' : KeptBut places d' d'') : KeptBut places d d'' :=
  ⟨h'.root.trans h.root, h'.here.trans h.here, fun l hl => (h'.files l hl).trans (h.files l hl)⟩

lemma mono (h : KeptBut places d d') (hsub : places ⊆ places') : KeptBut places' d d' :=
  ⟨h.root, h.here, fun l hl => h.files l fun hmem => hl (hsub hmem)⟩

end KeptBut

/-! ### Ways -/

lemma absolute_congr (hroot : d'.root = d.root) (hhere : d'.here = d.here) (path : String) :
    d'.absolute path = d.absolute path := by
  obtain ⟨root, here, nodes⟩ := d
  obtain ⟨root', here', nodes'⟩ := d'
  subst hroot hhere
  rfl

lemma partsOf_congr (hroot : d'.root = d.root) (hhere : d'.here = d.here) (path : String) :
    d'.partsOf path = d.partsOf path := by
  obtain ⟨root, here, nodes⟩ := d
  obtain ⟨root', here', nodes'⟩ := d'
  subst hroot hhere
  rfl

/-- Two disks have the same directories, and paths start from the same one. -/
structure SameWays (d d' : Disk) : Prop where
  root : d'.root = d.root
  here : d'.here = d.here
  directory : ∀ l, d'.node? l = some .directory ↔ d.node? l = some .directory

lemma walk_append (d : Disk) (here : Location) (xs ys : List String) :
    d.walk here (xs ++ ys) = (d.walk here xs).bind fun l => d.walk l ys := by
  induction xs generalizing here with
  | nil => rfl
  | cons x xs ih =>
    rw [List.cons_append, walk, walk]
    split
    · rfl
    · rfl
    · split
      · exact ih here
      · split
        · split
          · rfl
          · exact ih _
        · split
          · rfl
          · exact ih _

/-- A point leads nowhere else, and only from a directory. -/
lemma walk_point : d.walk here ["."] = .ok l ↔ l = here ∧ d.node? here = some .directory := by
  rw [walk]
  rcases hnode : d.node? here with _ | _ | _
  · simp
  · simp only [walk, or_true, if_true, Except.ok.injEq, and_true]
    exact eq_comm
  · simp

lemma walk_name {name : String} (hdir : d.node? here = some .directory) (hname : name ≠ "")
    (hpoint : name ≠ ".") (hback : name ≠ "..") (hlong : isLongName name = false) :
    d.walk here [name] = .ok (here ++ [name]) := by
  simp [walk, hdir, hname, hpoint, hback, hlong]

lemma walk_ne_null : d.walk here parts ≠ .error .null := by
  induction parts generalizing here with
  | nil => simp [walk]
  | cons part rest ih =>
    rw [walk]
    split
    · simp
    · simp
    · split_ifs <;> first | exact ih | simp

def trimmed (parts : List String) : List String := (parts.reverse.dropWhile (· = "")).reverse

lemma trimmed_of_last (h : parts.getLast? ≠ some "") : trimmed parts = parts := by
  rcases List.eq_nil_or_concat parts with rfl | ⟨before, last, rfl⟩
  · rfl
  · rw [List.concat_eq_append] at h ⊢
    have hlast : last ≠ "" := by simpa using h
    simp [trimmed, hlast]

lemma last_ne_empty_of_trimmed {before : List String} {last : String}
    (h : trimmed parts = before ++ [last]) : last ≠ "" := by
  rintro rfl
  have hhead := List.head?_dropWhile_not (fun s : String => decide (s = "")) parts.reverse
  rw [trimmed, List.reverse_eq_iff] at h
  simp [h] at hhead

lemma place_eq (d : Disk) (path : String) : d.place path = (d.partsOf path).bind fun parts =>
    match (trimmed parts).getLast? with
    | none => .ok ([], none)
    | some last => (d.walk [] ((trimmed parts).dropLast ++ ["."])).bind fun holder =>
      if last = "." ∨ last = ".." then .ok (holder, none) else .ok (holder, some last) := rfl

lemma place_eq_ok {last : String} (h : d.place path = .ok (here, some last)) :
    ∃ parts before, d.partsOf path = .ok parts ∧ trimmed parts = before ++ [last] ∧
      d.walk [] (before ++ ["."]) = .ok here ∧ last ≠ "." ∧ last ≠ ".." := by
  rw [place_eq] at h
  rcases hparts : d.partsOf path with t | parts
  · rw [hparts] at h
    cases h
  rw [hparts, Except.bind] at h
  rcases List.eq_nil_or_concat (trimmed parts) with hnil | ⟨before, last', hlast⟩
  · simp [hnil] at h
  rw [List.concat_eq_append] at hlast
  simp only [hlast, List.getLast?_concat, List.dropLast_concat] at h
  rcases hwalk : d.walk [] (before ++ ["."]) with t | holder
  · rw [hwalk] at h
    cases h
  rw [hwalk, Except.bind] at h
  split at h
  · cases h
  · next hname =>
    cases h
    exact ⟨parts, before, rfl, hlast, hwalk, not_or.mp hname⟩

lemma writable_eq_ok (h : d.writable path = .ok l) : ∃ holder last,
    d.place path = .ok (holder, some last) ∧ endsOpen path = false ∧ isLongName last = false ∧
      l = holder ++ [last] ∧ d.node? l ≠ some .directory := by
  rw [writable] at h
  split at h
  · cases h
  · cases h
  · next holder last hplace =>
    split_ifs at h with hopen hlong
    cases h
    rw [not_or, Bool.not_eq_true] at hopen
    exact ⟨holder, last, hplace, hopen.1, Bool.not_eq_true _ ▸ hlong, rfl, hopen.2⟩

lemma ne_nil_of_writable (h : d.writable path = .ok l) : l ≠ [] := by
  obtain ⟨holder, last, -, -, -, rfl, -⟩ := writable_eq_ok h
  simp

lemma partsOf_eq_null_iff : d.partsOf path = .error .null ↔ '\x00' ∈ path.toList := by
  rw [partsOf, ← List.contains_iff_mem]
  split
  · next hnull => exact iff_of_true rfl hnull
  · next hnull =>
    rw [iff_false_right hnull]
    split
    · simp
    · split
      · simp
      · split_ifs <;> simp

/-- A path with a null character cannot be written at, and no other fails so. -/
lemma writable_eq_null_iff : d.writable path = .error .null ↔ '\x00' ∈ path.toList := by
  have hplace : d.place path = .error .null ↔ '\x00' ∈ path.toList := by
    rw [← partsOf_eq_null_iff (d := d), place_eq]
    rcases d.partsOf path with t | parts
    · simp [Except.bind]
    · simp only [Except.bind, reduceCtorEq, iff_false]
      split
      · simp
      · next last _ =>
        have hwalk : d.walk [] ((trimmed parts).dropLast ++ ["."]) ≠ .error .null := walk_ne_null
        generalize d.walk [] ((trimmed parts).dropLast ++ ["."]) = holder at hwalk
        rcases holder with t | holder
        · simpa [Except.bind] using hwalk
        · simp only
          split <;> simp
  rw [← hplace, writable]
  split
  · next t ht => simp [ht]
  · next hplaced => simp [hplaced]
  · next hplaced =>
    rw [hplaced]
    split_ifs <;> simp

lemma write_eq_null_iff {path' : String} :
    d.write path bytes = .error ⟨.null, path'⟩ ↔ path' = path ∧ '\x00' ∈ path.toList := by
  rw [← writable_eq_null_iff (d := d), write]
  split
  · next hl => simp [hl]
  · next t ht => simp [ht, @eq_comm _ path path', and_comm]

/-- Where a path leads does not depend on what else there is. -/
lemma walk_unique (h : d.walk here parts = .ok l) (h' : d'.walk here parts = .ok l') :
    l' = l := by
  induction parts generalizing here with
  | nil => exact (Except.ok.inj h').symm.trans (Except.ok.inj h)
  | cons part rest ih =>
    rw [walk] at h h'
    split at h
    · cases h
    · cases h
    split at h'
    · cases h'
    · cases h'
    split_ifs at h h' <;> exact ih h h'

def LeadsTo (d : Disk) (path : String) (l : Location) : Prop :=
  (d.partsOf path).bind (d.walk []) = .ok l

lemma LeadsTo.unique (h : d.LeadsTo path l) (h' : d'.LeadsTo path l') (hroot : d'.root = d.root)
    (hhere : d'.here = d.here) : l' = l := by
  rw [LeadsTo] at h h'
  rw [partsOf_congr hroot hhere] at h'
  rcases hparts : d.partsOf path with t | parts
  · rw [hparts] at h
    cases h
  · rw [hparts] at h h'
    exact walk_unique h h'

/-- Only a path that is too long is refused where a file is looked for. -/
lemma seek_eq_error_iff {e : FileError} :
    d.seek path = .error e ↔ e = ⟨.tooLong, path⟩ ∧ d.lookUp path = .error .tooLong := by
  rw [seek]
  split
  · next hfound => simp [hfound]
  · next hlong => simp [hlong, eq_comm]
  · next hlong =>
    simp only [reduceCtorEq, false_iff, not_and]
    exact fun _ => hlong

/-- The last part of a path on a disk is not empty if the path does not end with a slash. -/
lemma getLast?_partsOf (hparts : d.partsOf path = .ok parts) (hopen : endsOpen path = false) :
    parts.getLast? ≠ some "" := by
  have hend : path.toList.getLast? ≠ some '/' := by simpa [endsOpen] using hopen
  rw [partsOf] at hparts
  split at hparts
  · cases hparts
  split at hparts
  · cases hparts
  split at hparts
  · next rest hbelow =>
    cases hparts
    rw [below?] at hbelow
    split_ifs at hbelow with hempty hroot hprefix
    · cases hbelow
      decide
    · cases hbelow
      obtain ⟨tail, htail⟩ := List.isPrefixOf_iff_prefix.mp hprefix
      have hdrop : path.toList.drop (d.root.length + 1) = tail := by
        rw [← htail, String.toList_append]
        exact List.drop_left' (by simp [String.length_toList])
      have hne : tail ≠ [] := by
        rintro rfl
        simp [← htail] at hend
      rw [← htail, List.getLast?_append, List.getLast?_eq_some_getLast hne] at hend
      have hend' : (String.ofList tail).toList.getLast? ≠ some '/' := by
        rw [String.toList_ofList, List.getLast?_eq_some_getLast hne]
        exact hend
      obtain ⟨last, hlast, heq⟩ := Path.exists_getLast?_parts (by simpa using hne) hend'
      simpa [hdrop, heq] using hlast
  · split_ifs at hparts with hstart
    cases hparts
    have hne : path ≠ "" := fun hempty => hstart (.inl hempty)
    obtain ⟨last, hlast, heq⟩ := Path.exists_getLast?_parts hne hend
    simpa [List.getLast?_append, heq] using hlast

lemma find?_of_writable (h : d.writable path = .ok l) : d.find? path = d.node? l := by
  obtain ⟨holder, last, hplace, hopen, hlong, rfl, -⟩ := writable_eq_ok h
  obtain ⟨parts, before, hparts, htrimmed, hwalk, hpoint, hback⟩ := place_eq_ok hplace
  have hname := last_ne_empty_of_trimmed htrimmed
  rw [trimmed_of_last (getLast?_partsOf hparts hopen)] at htrimmed
  rw [walk_append] at hwalk
  rcases hbefore : d.walk [] before with t | here
  · rw [hbefore] at hwalk
    cases hwalk
  rw [hbefore] at hwalk
  obtain ⟨rfl, hdir⟩ := walk_point.mp hwalk
  have hwhole : d.walk [] parts = .ok (holder ++ [last]) := by
    rw [htrimmed, walk_append, hbefore]
    exact walk_name hdir hname hpoint hback hlong
  rw [find?, lookUp, hparts, Except.bind, hwhole]
  simp only
  cases d.node? (holder ++ [last]) <;> rfl

namespace SameWays

lemma refl (d : Disk) : SameWays d d := ⟨rfl, rfl, fun _ => Iff.rfl⟩

lemma symm (h : SameWays d d') : SameWays d' d :=
  ⟨h.root.symm, h.here.symm, fun l => (h.directory l).symm⟩

lemma put_file (hl : l ≠ []) (hdir : d.node? l ≠ some .directory) (bytes : List UInt8) :
    SameWays d (d.put l (.file bytes)) := by
  refine ⟨rfl, rfl, fun l' => ?_⟩
  rw [node?_put hl]
  split
  · next heq => simp [heq, hdir]
  · rfl

lemma walk (h : SameWays d d') (hwalk : d.walk here parts = .ok l) :
    d'.walk here parts = .ok l := by
  induction parts generalizing here with
  | nil => exact hwalk
  | cons part rest ih =>
    rw [Disk.walk] at hwalk ⊢
    rcases hnode : d.node? here with _ | _ | _
    · rw [hnode] at hwalk
      cases hwalk
    · rw [hnode] at hwalk
      rw [(h.directory here).mpr hnode]
      simp only at hwalk ⊢
      split_ifs at hwalk ⊢ <;> exact ih hwalk
    · rw [hnode] at hwalk
      cases hwalk

lemma writable (h : SameWays d d') (hl : d.writable path = .ok l) : d'.writable path = .ok l := by
  have hplace {r : Location × Option String} (hr : d.place path = .ok r) :
      d'.place path = .ok r := by
    rw [place_eq] at hr ⊢
    rw [partsOf_congr h.root h.here]
    rcases hparts : d.partsOf path with t | parts
    · rw [hparts] at hr
      cases hr
    rw [hparts, Except.bind] at hr
    rw [Except.bind]
    split at hr
    · next hnone => exact hr
    · next last hsome =>
      rcases hwalk : d.walk [] ((trimmed parts).dropLast ++ ["."]) with t | holder
      · rw [hwalk] at hr
        cases hr
      · rw [hwalk] at hr
        rw [h.walk hwalk]
        exact hr
  obtain ⟨holder, last, hplaced, hopen, hlong, rfl, hdir⟩ := writable_eq_ok hl
  rw [Disk.writable, hplace hplaced]
  simp [hopen, hlong, h.directory, hdir]

end SameWays

/-! ### Writing -/

/-- A file is written at one place, and no way changes. -/
lemma write_eq_ok (h : d.write path bytes = .ok d') : ∃ l, d.writable path = .ok l ∧
    d'.fileAt? l = some bytes ∧ KeptBut {l} d d' ∧ SameWays d d' := by
  rw [write] at h
  split at h
  · next l hl =>
    cases h
    have hne := ne_nil_of_writable hl
    obtain ⟨_, _, _, _, _, _, hdir⟩ := writable_eq_ok hl
    refine ⟨l, hl, by rw [fileAt?_put_file hne, if_pos rfl], ⟨rfl, rfl, fun l' hl' => ?_⟩,
      .put_file hne hdir bytes⟩
    rw [fileAt?_put_file hne, if_neg (by simpa using hl')]
  · cases h

/-- **What was written is read back.** -/
theorem read?_of_write (h : d.write path bytes = .ok d') : d'.read? path = some bytes := by
  obtain ⟨l, hl, hfile, -, hways⟩ := write_eq_ok h
  rw [fileAt?] at hfile
  rw [read?, find?_of_writable (hways.writable hl)]
  exact hfile

/-! ### Making directories -/

lemma keptBut_makeDirectory (places : Set Location) (h : d.makeDirectory path = .ok d') :
    KeptBut places d d' := by
  rw [makeDirectory] at h
  split at h
  · cases h
  · cases h
  · next holder last _ =>
    split_ifs at h with hnew
    cases h
    rw [Option.not_isSome_iff_eq_none] at hnew
    refine ⟨rfl, rfl, fun l _ => ?_⟩
    rw [fileAt?, node?_put (by simp), fileAt?]
    by_cases hl : l = holder ++ [last]
    · simp [hl, hnew]
    · rw [if_neg hl]

lemma keptBut_haveDirectory (places : Set Location) (d : Disk) (path : String) :
    KeptBut places d (d.haveDirectory path).2 := by
  rw [haveDirectory]
  rcases h : d.makeDirectory path with e | d'
  · exact .refl places d
  · exact keptBut_makeDirectory places h

lemma keptBut_makeDirectoriesAux (places : Set Location) (d : Disk) (fuel : Nat) (path : String) :
    KeptBut places d (d.makeDirectoriesAux fuel path).2 := by
  induction fuel generalizing d path with
  | zero =>
    rw [makeDirectoriesAux]
    rcases h : d.makeDirectory path with e | d'
    · exact .refl places d
    · exact keptBut_makeDirectory places h
  | succ fuel ih =>
    rw [makeDirectoriesAux]
    simp only
    generalize (if Path.baseName path = "" then Path.dirName path else path) = path'
    have hhead := ih d (Path.dirName path')
    generalize d.makeDirectoriesAux fuel (Path.dirName path') = made at hhead
    split
    · exact keptBut_haveDirectory places d path
    · -- the directory is made on the disk that those it lies in have left
      split_ifs
      · exact hhead
      · exact hhead
      · exact hhead.trans (keptBut_haveDirectory places _ path)

lemma keptBut_makeDirectories (places : Set Location) (d : Disk) (path : String) :
    KeptBut places d (d.makeDirectories path).2 :=
  keptBut_makeDirectoriesAux places d path.length path

end Disk

end LinkedJson.Files
