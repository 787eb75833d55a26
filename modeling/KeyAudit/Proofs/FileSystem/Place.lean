import KeyAudit.Log.File
import KeyAudit.Proofs.FileSystem.Content
import KeyAudit.Proofs.FileSystem.Reordering
import KeyAudit.Proofs.FileSystem.Spelling
import KeyAudit.Proofs.FileSystem.Way

/-!
# Where a file is opened

A log file is opened at the absolute path of its path, on which every `..` is taken by its
name, while the directory that is to hold it is made where its own path leads. The two agree if
the path of the directory has no `..` (`resolve_of_resolve_absolutePath`): then its names are
looked up one by one, and only their spelling may differ (`Leads.respelled`). With a `..` they
may not, as a link may have been followed to where the name `..` is looked up.

Opening a file makes it if need be. Nothing on the way to it changes by that, so it is still at
the same place in the same directory (`IsFileIn.put`).
-/

namespace KeyAudit

/-! ## Texts of paths -/

theorem Text.join_prefix_join_append (separator t : Text) (texts : List Text) :
    join separator texts <+: join separator (texts ++ [t]) := by
  induction texts with
  | nil => exact List.nil_prefix
  | cons s texts ih =>
    cases texts with
    | nil =>
      rw [List.singleton_append, join_cons_cons]
      simp [join, List.intercalate]
    | cons s' texts =>
      rw [List.cons_append, List.cons_append, join_cons_cons, join_cons_cons]
      rw [List.cons_append] at ih
      exact (List.prefix_append_right_inj _).2 ((List.prefix_append_right_inj _).2 ih)

theorem FileName.size_le_of_prefix {s t : Text} (h : s <+: t) : size s ≤ size t := by
  obtain ⟨rest, rfl⟩ := h
  rw [size, size, octets_append, List.length_append]
  exact Nat.le_add_right _ _

namespace FileSystem

variable {fs fs' : FileSystem} {budget : Nat} {here k l m : Location} {names names' : List Text}
  {name spelled : Text} {content : ByteArray} {p : Path}

/-! ## Other spellings -/

/-- A name is looked up like another one. -/
structure Respells (spelled name : Text) : Prop where
  dot : spelled = "." ↔ name = "."
  dots : spelled = ".." ↔ name = ".."
  canonical : FileName.canonical spelled = FileName.canonical name

namespace Respells

theorem refl (name : Text) : Respells name name := ⟨Iff.rfl, Iff.rfl, rfl⟩

theorem size (h : Respells spelled name) : FileName.size spelled = FileName.size name := by
  rw [← FileName.size_canonical, h.canonical, FileName.size_canonical]

/-- A name is looked up as it is listed. -/
theorem ofCanonical (h : FileName.unencodable? name = none) :
    Respells (FileName.canonical name) name where
  dot := ⟨FileName.eq_of_canonical_eq h (by decide +kernel), by rintro rfl; rfl⟩
  dots := ⟨FileName.eq_of_canonical_eq h (by decide +kernel), by rintro rfl; rfl⟩
  canonical := FileName.canonical_canonical name

theorem isLookedUp (h : Respells spelled name) (hs : IsLookedUp spelled) : IsLookedUp name :=
  ⟨mt h.dot.2 hs.1, mt h.dots.2 hs.2.1, h.size ▸ hs.2.2⟩

end Respells

/-- Names lead to the same place however they are spelled. -/
theorem Leads.respelled (h : fs.Leads l budget here names)
    (hnames : List.Forall₂ Respells names names') : fs.Leads l budget here names' := by
  induction h generalizing names' with
  | ended =>
    cases hnames
    exact .ended
  | stays hd _ ih =>
    cases hnames with
    | cons hname hrest =>
      obtain rfl := hname.dot.1 rfl
      exact .stays hd (ih hrest)
  | leaves hd _ ih =>
    cases hnames with
    | cons hname hrest =>
      obtain rfl := hname.dots.1 rfl
      exact .leaves hd (ih hrest)
  | @links budget here spelled target rest hd hlooked hn _ ih =>
    cases hnames with
    | cons hname hrest =>
      -- The names in the target of the link are spelled as they are.
      have htarget : List.Forall₂ Respells (targetNames target) (targetNames target) :=
        List.forall₂_same.2 fun name _ => .refl name
      refine .links hd (hname.isLookedUp hlooked) (hname.canonical ▸ hn) (ih ?_)
      exact List.rel_append htarget hrest
  | enters hd hlooked hn hlink _ ih =>
    cases hnames with
    | cons hname hrest =>
      have hthere := ih hrest
      rw [hname.canonical] at hn hthere
      exact .enters hd (hname.isLookedUp hlooked) hn hlink hthere

/-! ## Directories that are made -/

/-- A system call takes a path, and it is not too long. -/
structure Fits (p : Path) : Prop where
  usable : p.unusable? = none
  size : FileName.size p.toText ≤ pathLimit

theorem fits_of_make {node : Node} (h : fs.make p node = .ok fs') : Fits p := by
  rw [make] at h
  split at h
  · cases h
  case _ husable =>
  refine ⟨husable, Nat.not_lt.1 fun hsize => ?_⟩
  have hfree : ∃ errno, fs.freePlace p = .error errno := by
    rw [freePlace, holder]
    cases p.names.getLast? with
    | none => exact ⟨_, rfl⟩
    | some name => exact ⟨.nameTooLong, by simp only [if_pos hsize]⟩
  obtain ⟨errno, hfree⟩ := hfree
  rw [hfree] at h
  cases h

theorem fits_of_askDirectory (h : fs.askDirectory p = .ok true) : Fits p := by
  rw [askDirectory] at h
  split at h
  · cases h
  case isFalse husable =>
  refine ⟨Option.not_isSome_iff_eq_none.1 husable, Nat.not_lt.1 fun hsize => ?_⟩
  rw [resolve, if_pos hsize] at h
  split at h
  · cases h
  · cases h

theorem fits_of_makeDirectory (h : fs.makeDirectory p = .ok fs') : Fits p := by
  rw [makeDirectory] at h
  split at h
  · case _ hmake => exact fits_of_make hmake
  · cases h
  · split at h
    · case _ hask => exact fits_of_askDirectory hask
    · cases h
    · cases h

theorem eq_ok_of_attempt {result : Except AccessError FileSystem}
    (h : fs.attempt result = (fs', none)) : result = .ok fs' := by
  cases result with
  | ok made => exact congrArg (fun attempt => Except.ok attempt.1) h
  | error error => cases congrArg Prod.snd h

/-- The path of a directory that has been made is one that can be followed. -/
theorem fits_of_makeDirectories (h : fs.makeDirectories p = (fs', none)) : Fits p := by
  rw [makeDirectories] at h
  cases hbound : p.names.length with
  | zero =>
    rw [hbound] at h
    exact fits_of_makeDirectory (eq_ok_of_attempt h)
  | succ bound =>
    rw [hbound, makeDirectoriesUpTo] at h
    split at h
    · split at h
      · cases congrArg Prod.snd h
      · split at h
        · exact fits_of_makeDirectory (eq_ok_of_attempt h)
        · case _ hfailed => exact absurd h (hfailed _)
    · exact fits_of_makeDirectory (eq_ok_of_attempt h)

/-! ## Paths by their names -/

/-- The working directory is where the names on the way to it lead, and no link is followed. The
    operating system gives it so. -/
def HasRealWorkingDirectory (fs : FileSystem) : Prop :=
  fs.follow 0 [] fs.workingDirectory.reverse = .ok fs.workingDirectory

/-- All of some names are looked up by themselves. Of the names of a path that is read from a text
    only `..` is not. -/
def ArePlain (names : List Text) : Prop :=
  ∀ name ∈ names, name ≠ [] ∧ name ≠ "." ∧ name ≠ ".."

theorem descend_append (here : Location) (xs ys : List Text) :
    descend here (xs ++ ys) = descend (descend here xs) ys :=
  List.foldl_append

theorem descend_of_arePlain (h : ArePlain names) :
    descend here names = (names.map FileName.canonical).reverse ++ here := by
  induction names generalizing here with
  | nil => rfl
  | cons name names ih =>
    obtain ⟨⟨hempty, hdot, hdots⟩, hnames⟩ := List.forall_mem_cons.1 h
    have hstay : ¬(name = "" ∨ name = ".") := not_or.2 ⟨hempty, hdot⟩
    have henter : enter here name = FileName.canonical name :: here := by
      rw [enter, if_neg hstay, if_neg hdots]
    rw [descend, List.foldl_cons, henter, ← descend, ih hnames, List.map_cons, List.reverse_cons,
      List.append_assoc, List.singleton_append]

theorem follow_start (h : fs.HasRealWorkingDirectory) (a : Anchor) :
    fs.follow budget [] ((fs.start a).reverse ++ names) = fs.follow budget (fs.start a) names := by
  cases a with
  | workingDirectory =>
    obtain ⟨used, hu, hfollow⟩ := follow_append h
    have hrest := hfollow budget names
    rwa [Nat.le_zero.1 hu, Nat.zero_add] at hrest
  | top => rfl
  | doubleTop => rfl

theorem absolutePath_child (h : ArePlain [name]) (hname : FileName.canonical name = name) :
    Logging.absolutePath fs (p.child name) = (Logging.absolutePath fs p).child name := by
  have hdescend := descend_append (fs.start p.anchor) p.names [name]
  rw [descend_of_arePlain h, List.map_singleton, hname, List.reverse_singleton,
    List.singleton_append] at hdescend
  simp only [Logging.absolutePath, pathOf, Path.child, hdescend, List.reverse_cons]

/-- A path without `..` leads where its absolute path leads. -/
theorem resolve_of_resolve_absolutePath (hfs : fs.HasRealWorkingDirectory)
    (hp : Fits p) (hnames : ArePlain p.names)
    (h : fs.resolve (Logging.absolutePath fs p) = .ok l) : fs.resolve p = .ok l := by
  have habsolute : Logging.absolutePath fs p =
      ⟨.top, (fs.start p.anchor).reverse ++ p.names.map FileName.canonical⟩ := by
    rw [Logging.absolutePath, descend_of_arePlain hnames, pathOf, List.reverse_append,
      List.reverse_reverse]
  rw [habsolute, FileSystem.resolve] at h
  split at h
  · cases h
  have h : fs.follow linkLimit [] _ = .ok l := h
  rw [follow_start hfs] at h
  rw [FileSystem.resolve, if_neg (Nat.not_lt.2 hp.size)]
  refine follow_of_leads ((leads_of_follow h).respelled ?_)
  refine List.forall₂_map_left_iff.2 (List.forall₂_same.2 fun name hname => .ofCanonical ?_)
  exact Text.unencodableFrom?_eq_none_iff.2 fun half hhalf =>
    Text.unencodableFrom?_eq_none_iff.1 (unusable?_eq_none_iff.1 hp.usable).1 half
      (Path.mem_toText_of_mem_names hname hhalf)

/-! ## Places of files -/

/-- A file may be opened at a location: there is one, or nothing. -/
structure IsFilePlace (fs : FileSystem) (l : Location) : Prop where
  ne_nil : l ≠ []
  node : ∀ node, fs.node? l = some node → ∃ content, node = .file content

/-- Names lead to the place of a file: those before the last one to a directory, and the last
    one there. -/
inductive Opens (fs : FileSystem) (l : Location) : Nat → Location → List Text → Prop
  /-- The place has the name. -/
  | file {budget here names name directory}
      (hfollow : fs.follow linkLimit here names = .ok directory)
      (hd : fs.admits directory = true) (hname : IsLookedUp name)
      (hl : l = FileName.canonical name :: directory) (hfile : fs.IsFilePlace l) :
      Opens fs l (budget + 1) here (names ++ [name])
  /-- A link has the name, and its target leads to the place. -/
  | link {budget here names name directory target}
      (hfollow : fs.follow linkLimit here names = .ok directory)
      (hd : fs.admits directory = true) (hname : IsLookedUp name)
      (hn : fs.node? (FileName.canonical name :: directory) = some (.link target)) :
      Opens fs l budget (targetStart directory target) (targetNames target) →
      Opens fs l (budget + 1) here (names ++ [name])

theorem opens_of_filePlaceFrom (h : fs.filePlaceFrom here names budget = .ok l) :
    fs.Opens l budget here names := by
  fun_induction filePlaceFrom fs here names budget with
  | case8 here names budget name hname directory hfollow hd hdot hsize place target hn ih =>
    rw [← List.dropLast_append_getLast? name hname]
    have hlooked : IsLookedUp name := ⟨mt .inl hdot, mt .inr hdot, Nat.not_lt.1 hsize⟩
    exact .link hfollow (by simpa using hd) hlooked hn (ih h)
  | case9 here names budget name hname directory hfollow hd hdot hsize place hdirectory hlink =>
    obtain rfl := Except.ok.inj h
    rw [← List.dropLast_append_getLast? name hname]
    have hlooked : IsLookedUp name := ⟨mt .inl hdot, mt .inr hdot, Nat.not_lt.1 hsize⟩
    refine .file hfollow (by simpa using hd) hlooked rfl ⟨List.cons_ne_nil _ _, fun node hn => ?_⟩
    cases node with
    | file content => exact ⟨content, rfl⟩
    | directory => exact absurd hn hdirectory
    | link target => exact absurd hn (hlink target)
  | case1 | case2 | case3 | case4 | case5 | case6 | case7 => cases h

theorem filePlaceFrom_of_opens (h : fs.Opens l budget here names) :
    fs.filePlaceFrom here names budget = .ok l := by
  induction h with
  | @file budget here names name directory hfollow hd hname hl hfile =>
    obtain ⟨hdot, hdots, hsize⟩ := hname
    rw [filePlaceFrom]
    simp only [List.getLast?_concat, List.dropLast_concat, hfollow, hd,
      if_neg (not_or.2 ⟨hdot, hdots⟩), if_neg (Nat.not_lt.2 hsize)]
    rw [← hl]
    cases hn : fs.node? l with
    | none => rfl
    | some node =>
      obtain ⟨content, rfl⟩ := hfile.node node hn
      rfl
  | @link budget here names name directory target hfollow hd hname hn _ ih =>
    obtain ⟨hdot, hdots, hsize⟩ := hname
    rw [filePlaceFrom]
    simp only [List.getLast?_concat, List.dropLast_concat, hfollow, hd, hn, ih,
      if_neg (not_or.2 ⟨hdot, hdots⟩), if_neg (Nat.not_lt.2 hsize)]
    rfl

/-! ## Files that are put -/

theorem start_put (fs : FileSystem) (l : Location) (node : Node) (a : Anchor) :
    (fs.put l node).start a = fs.start a := by
  cases a with
  | workingDirectory => exact workingDirectory_put fs l node
  | top => rfl
  | doubleTop => rfl

namespace IsFilePlace

variable (hl : fs.IsFilePlace l)
include hl

/-- What is put at the place of a file is a file, if it can be put. -/
theorem put : (fs.put l (.file content)).IsFilePlace l := by
  refine ⟨hl.ne_nil, fun node hn => ?_⟩
  cases hbefore : fs.node? l with
  | some before =>
    obtain ⟨x, rfl⟩ := hl.node before hbefore
    exact ⟨content, Option.some.inj (hn.symm.trans (node?_put hbefore))⟩
  | none =>
    have hfree : ¬fs.occupied l = true := fun h => by
      obtain ⟨name, directory, rfl⟩ := List.exists_cons_of_ne_nil hl.ne_nil
      exact node?_eq_none_iff.1 hbefore (List.contains_iff_mem.1 h)
    rw [FileSystem.put, dif_neg hfree] at hn
    split at hn
    · rw [node?, if_neg hl.ne_nil] at hbefore hn
      rw [List.lookup_append, hbefore, Option.none_or, List.lookup_cons_self] at hn
      exact ⟨content, (Option.some.inj hn).symm⟩
    · exact hl.node node hn

theorem hasDirectory : fs.hasDirectory l = false := by
  rw [FileSystem.hasDirectory]
  split
  · case _ hn =>
    obtain ⟨x, hx⟩ := hl.node _ hn
    cases hx
  · rfl

theorem hasDirectory_put :
    (fs.put l (.file content)).hasDirectory k = fs.hasDirectory k := by
  by_cases hk : k = l
  · rw [hk, hl.hasDirectory, hl.put.hasDirectory]
  · exact hasDirectory_congr (node?_put_of_ne hk)

theorem admits_put : (fs.put l (.file content)).admits k = fs.admits k := by
  rw [admits, admits, hl.hasDirectory_put, denied_put]

/-- The way to a directory does not come by the place of a file. -/
theorem follow_put (hd : fs.hasDirectory m = true) (h : fs.follow budget here names = .ok m) :
    (fs.put l (.file content)).follow budget here names = .ok m := by
  cases hn : fs.node? l with
  | none =>
    have hml : l ≠ m := ne_of_hasDirectory hl.hasDirectory hd
    have hway := (leads_of_follow h).notMem_way hn hml
    have hsame : ∀ k ∈ fs.way budget here names,
        (fs.put l (.file content)).node? k = fs.node? k :=
      fun k hk => node?_put_of_ne fun hkl => hway (hkl ▸ hk)
    rw [(follow_eq_of_way hsame fun _ _ => hl.admits_put).1, h]
  | some node =>
    obtain ⟨x, rfl⟩ := hl.node node hn
    rw [(alike_put hn content).follow, h]

theorem resolve_put (hd : fs.hasDirectory m = true) (h : fs.resolve p = .ok m) :
    (fs.put l (.file content)).resolve p = .ok m := by
  rw [resolve] at h ⊢
  split at h
  · cases h
  · case isFalse hsize => rw [if_neg hsize, start_put, hl.follow_put hd h]

end IsFilePlace

theorem Opens.isFilePlace (h : fs.Opens l budget here names) : fs.IsFilePlace l := by
  induction h with
  | file _ _ _ _ hfile => exact hfile
  | link _ _ _ _ _ ih => exact ih

/-- A file is opened at the same place after it has been put there. -/
theorem Opens.put (h : fs.Opens l budget here names) :
    (fs.put l (.file content)).Opens l budget here names := by
  have hl := h.isFilePlace
  induction h with
  | file hfollow hd hname hplace _ =>
    exact .file (hl.follow_put (hasDirectory_of_admits hd) hfollow) (hl.admits_put.trans hd) hname
      hplace hl.put
  | @link budget here names name directory target hfollow hd hname hn _ ih =>
    have hplace : FileName.canonical name :: directory ≠ l := by
      rintro rfl
      obtain ⟨x, hx⟩ := hl.node _ hn
      cases hx
    exact .link (hl.follow_put (hasDirectory_of_admits hd) hfollow) (hl.admits_put.trans hd) hname
      ((node?_put_of_ne hplace).trans hn) ih

/-! ## Files in directories -/

/-- The file of a name in the directory of a path is at a location, when the links are followed
    that have the name. -/
def IsFileIn (fs : FileSystem) (d : Path) (name : Text) (l : Location) : Prop :=
  ∃ directory, fs.resolve d = .ok directory ∧ fs.hasDirectory directory = true ∧
    fs.filePlaceFrom directory [name] (linkLimit + 1) = .ok l

/-- The last name is looked for in the directory that the others lead to. -/
theorem Opens.exists_directory (h : fs.Opens l (budget + 1) here (names ++ [name])) :
    ∃ directory, fs.follow linkLimit here names = .ok directory ∧
      fs.hasDirectory directory = true ∧ fs.Opens l (budget + 1) directory ([] ++ [name]) := by
  generalize hnames : names ++ [name] = all at h
  cases h with
  | @file _ _ names' name' directory hfollow hd hname hl hfile =>
    obtain ⟨rfl, hlast⟩ := List.append_inj' hnames rfl
    obtain rfl := List.singleton_inj.1 hlast
    exact ⟨directory, hfollow, hasDirectory_of_admits hd, .file (by rw [follow]) hd hname hl hfile⟩
  | @link _ _ names' name' directory _ hfollow hd hname hn hrest =>
    obtain ⟨rfl, hlast⟩ := List.append_inj' hnames rfl
    obtain rfl := List.singleton_inj.1 hlast
    exact ⟨directory, hfollow, hasDirectory_of_admits hd, .link (by rw [follow]) hd hname hn hrest⟩

/-- A file is in the directory of its path. -/
theorem isFileIn_of_filePlace (h : fs.filePlace ((pathOf k).child name) = .ok l) :
    fs.IsFileIn (pathOf k) name l := by
  rw [filePlace] at h
  split at h
  · cases h
  split at h
  · cases h
  split at h
  · cases h
  case isFalse hsize =>
  split at h
  · cases h
  case _ place hplace =>
  obtain rfl := Except.ok.inj h
  obtain ⟨directory, hfollow, hd, hopens⟩ := (opens_of_filePlaceFrom hplace).exists_directory
  refine ⟨directory, ?_, hd, filePlaceFrom_of_opens hopens⟩
  have hprefix : (pathOf k).toText <+: ((pathOf k).child name).toText :=
    (List.prefix_append_right_inj _).2 (Text.join_prefix_join_append _ _ _)
  have hle := (FileName.size_le_of_prefix hprefix).trans (Nat.not_lt.1 hsize)
  rwa [resolve, if_neg (Nat.not_lt.2 hle)]

/-- A file is in the directory of a path without `..` if it is in that of its absolute path. -/
theorem isFileIn_of_isFileIn_absolutePath (hfs : fs.HasRealWorkingDirectory) (hp : Fits p)
    (hnames : ArePlain p.names) (h : fs.IsFileIn (Logging.absolutePath fs p) name l) :
    fs.IsFileIn p name l := by
  obtain ⟨directory, hd, hplace⟩ := h
  exact ⟨directory, resolve_of_resolve_absolutePath hfs hp hnames hd, hplace⟩

/-- The file of a name in a directory is at one place. -/
theorem IsFileIn.unique {d : Path} (h : fs.IsFileIn d name k) (h' : fs.IsFileIn d name l) :
    k = l := by
  obtain ⟨directory, hd, -, hplace⟩ := h
  obtain ⟨directory', hd', -, hplace'⟩ := h'
  obtain rfl := Except.ok.inj (hd.symm.trans hd')
  exact Except.ok.inj (hplace.symm.trans hplace')

/-- A file that has been put is where it is looked for. -/
theorem IsFileIn.put {d : Path} (h : fs.IsFileIn d name l) :
    (fs.put l (.file content)).IsFileIn d name l := by
  obtain ⟨directory, hd, hdirectory, hplace⟩ := h
  have hopens := opens_of_filePlaceFrom hplace
  have hl := hopens.isFilePlace
  exact ⟨directory, hl.resolve_put hdirectory hd, hl.hasDirectory_put.trans hdirectory,
    filePlaceFrom_of_opens hopens.put⟩

end FileSystem

end KeyAudit
