import KeyAudit.Proofs.Walk.Chain

/-!
# Links that are skipped lose nothing

A walk does not enter a directory that it is in already, by whatever path it meets it.
Still it comes to every real directory that can be reached from the real location of its
root (`Reachable`), where an entry leads from the directory that holds it to another one
(`entryDirectory?`): what is reached again at the end of a chain is in the chain, so a
shorter chain ends there (`chain_of_reachable`).

This takes that the entries of a directory lead to the same places on every path to it
(`ResolvesByEntries`), which is so as long as no path meets the limits of the operating
system (`resolvesByEntries_of_isUnlimited`).
-/

namespace KeyAudit.FileSystem

variable (fs : FileSystem)

/-- The real directory that an entry of the directory at a location leads to, if there
    is one and it may be asked for. -/
def entryDirectory? (l : Location) (name : Text) : Option Location :=
  match fs.follow linkLimit l [name] with
  | .ok m => if fs.hasDirectory m = true ∧ (Access.kind, m) ∉ fs.denied then some m else none
  | .error _ => none

/-- The real directories that entries lead to, one after the other, from the one at
    `top`. -/
inductive Reachable (top : Location) : Location → Prop
  | top : Reachable top top
  | entry {l m : Location} {name : Text} : Reachable top l → name ∈ fs.entries l →
      fs.entryDirectory? l name = some m → Reachable top m

/-- On the paths of a walk an entry leads where its name leads from the real location of
    the directory that holds it. -/
def ResolvesByEntries (root : Path) : Prop :=
  ∀ d ds names name, fs.Chain true root (d :: ds) → fs.list d = .ok names → name ∈ names →
    fs.resolve (d.child name) = fs.follow linkLimit (fs.realPath d) [name]

variable {fs} {root d : Path} {ds : List Path} {top l m : Location} {name : Text}

/-! ## Limits -/

variable (fs) in
/-- A path is followed within the limits of the operating system: it is not too long, and
    where it leads to would be no other if more links could be followed. -/
def IsUnlimited (p : Path) : Prop :=
  FileName.size p.toText ≤ pathLimit ∧ ∀ budget ≥ linkLimit,
    fs.follow budget (fs.start p.anchor) p.names = fs.follow linkLimit (fs.start p.anchor) p.names

/-- Names that lead somewhere use up some of the links that may be followed; the names
    after them are followed from there with the others. -/
theorem follow_append {budget : Nat} {here : Location} {names : List Text}
    (h : fs.follow budget here names = .ok l) :
    ∃ used ≤ budget, ∀ more rest,
      fs.follow (used + more) here (names ++ rest) = fs.follow more l rest := by
  fun_induction follow fs budget here names with
  | case1 budget here =>
    cases h
    exact ⟨0, Nat.zero_le _, fun more rest => by rw [Nat.zero_add, List.nil_append]⟩
  | case3 budget here rest hd ih =>
    obtain ⟨used, hu, ih⟩ := ih h
    exact ⟨used, hu, fun more ys => by rw [List.cons_append, follow, if_neg hd, if_pos rfl, ih]⟩
  | case4 budget here rest hd hdot ih =>
    obtain ⟨used, hu, ih⟩ := ih h
    exact ⟨used, hu, fun more ys => by
      rw [List.cons_append, follow, if_neg hd, if_neg hdot, if_pos rfl, ih]⟩
  | case8 here name rest hd hdot hdots hsize there target hnode budget ih =>
    -- One link more has been followed than the names of its target take.
    obtain ⟨used, hu, ih⟩ := ih h
    refine ⟨used + 1, Nat.succ_le_succ hu, fun more ys => ?_⟩
    rw [List.cons_append, follow, if_neg hd, if_neg hdot, if_neg hdots, if_neg hsize,
      Nat.add_right_comm]
    simp only [show fs.node? (FileName.canonical name :: here) = _ from hnode]
    rw [← List.append_assoc]
    exact ih more ys
  | case9 budget here name rest hd hdot hdots hsize there node hlink hnode ih =>
    obtain ⟨used, hu, ih⟩ := ih h
    refine ⟨used, hu, fun more ys => ?_⟩
    rw [List.cons_append, follow, if_neg hd, if_neg hdot, if_neg hdots, if_neg hsize]
    simp only [show fs.node? (FileName.canonical name :: here) = _ from hnode]
    cases node with
    | link target => exact absurd rfl (hlink target)
    | file content => exact ih more ys
    | directory => exact ih more ys
  | case2 | case5 | case6 | case7 => cases h

/-! ## Chains and real directories -/

/-- A chain may end earlier. -/
theorem Chain.of_mem {recursive : Bool} {c : List Path} (hc : fs.Chain recursive root c)
    (h : d ∈ c) : ∃ ds, fs.Chain recursive root (d :: ds) := by
  induction hc with
  | root => exact ⟨[], List.mem_singleton.1 h ▸ .root⟩
  | enter hc hr hl hn hd hv ih =>
    rcases List.mem_cons.1 h with rfl | h
    · exact ⟨_, .enter hc hr hl hn hd hv⟩
    · exact ih h

/-- The directories of a chain are where they lead to. -/
theorem Chain.resolve (htop : fs.resolve root = .ok top) {recursive : Bool}
    (hc : fs.Chain recursive root (d :: ds)) : fs.resolve d = .ok (fs.realPath d) := by
  cases hc with
  | root => rw [realPath_of_resolve htop, htop]
  | enter _ _ _ _ hd _ =>
    obtain ⟨-, l, hl, -⟩ := isDirectory_iff.1 hd
    rw [realPath_of_resolve hl, hl]

theorem Chain.hasDirectory (htop : fs.resolve root = .ok top) (hdir : fs.hasDirectory top = true)
    {recursive : Bool} (hc : fs.Chain recursive root (d :: ds)) :
    fs.hasDirectory (fs.realPath d) = true := by
  cases hc with
  | root => rwa [realPath_of_resolve htop]
  | enter _ _ _ _ hd _ => exact hasDirectory_realPath hd

/-- An entry leads to a real directory if and only if its path is that of a directory. -/
theorem entryDirectory?_eq_some_iff (hp : (d.child name).unusable? = none)
    (hr : fs.resolve (d.child name) = fs.follow linkLimit l [name]) :
    fs.entryDirectory? l name = some m ↔
      fs.isDirectory (d.child name) = true ∧ fs.realPath (d.child name) = m := by
  rw [isDirectory_iff, entryDirectory?, ← hr]
  cases hc : fs.resolve (d.child name) with
  | error errno => simp
  | ok k =>
    rw [realPath_of_resolve hc]
    by_cases h : fs.hasDirectory k = true ∧ (Access.kind, k) ∉ fs.denied
    · simp [h, hp]
    · simp [h]

/-- What can be listed has the entries of its real location. -/
theorem entries_of_list {names : List Text} (hl : fs.list d = .ok names) :
    fs.entries (fs.realPath d) = names := by
  obtain ⟨-, l, hr, -, -, he⟩ := list_eq_ok_iff.1 hl
  rwa [realPath_of_resolve hr]

/-- Without limits the entries of a directory lead to the same places on every path to
    it. -/
theorem resolvesByEntries_of_isUnlimited (htop : fs.resolve root = .ok top)
    (h : ∀ d ds names name, fs.Chain true root (d :: ds) → fs.list d = .ok names → name ∈ names →
      fs.IsUnlimited (d.child name)) : fs.ResolvesByEntries root := by
  intro d ds names name hc hl hn
  have hd := hc.resolve htop
  obtain ⟨hsize, hlinks⟩ := h d ds names name hc hl hn
  rw [FileSystem.resolve] at hd
  split at hd
  · cases hd
  · -- The links that `d` takes up are not missing for the entry, as more would do no good.
    obtain ⟨used, -, hfollow⟩ := follow_append hd
    calc fs.resolve (d.child name)
        = fs.follow linkLimit (fs.start d.anchor) (d.names ++ [name]) := by
          rw [FileSystem.resolve, if_neg (Nat.not_lt.2 hsize)]
          rfl
      _ = fs.follow (used + linkLimit) (fs.start d.anchor) (d.names ++ [name]) :=
          (hlinks _ (Nat.le_add_left _ _)).symm
      _ = fs.follow linkLimit (fs.realPath d) [name] := hfollow _ _

/-! ## Real directories of a walk -/

/-- Every directory of a chain is reachable. -/
theorem reachable_of_chain (htop : fs.resolve root = .ok top)
    (hlocal : fs.ResolvesByEntries root) (hc : fs.Chain true root (d :: ds)) :
    fs.Reachable top (fs.realPath d) := by
  generalize hds : d :: ds = c at hc
  induction hc generalizing d ds with
  | root =>
    cases hds
    exact realPath_of_resolve htop ▸ .top
  | @enter d' ds' names name hc hr hl hn hd hv ih =>
    cases hds
    refine .entry (ih rfl) (entries_of_list hl ▸ hn) ?_
    exact (entryDirectory?_eq_some_iff (unusable?_child_of_list hl hn)
      (hlocal _ _ _ _ hc hl hn)).2 ⟨hd, rfl⟩

/-- If a walk does not fail, a chain ends at every real directory that is reachable: one
    that is met again within a chain is the end of a part of it. -/
theorem chain_of_reachable {extensions : List Text} (htop : fs.resolve root = .ok top)
    (hlocal : fs.ResolvesByEntries root)
    (hw : (fs.walk ⟨extensions, true⟩ root).failure = none) (h : fs.Reachable top l) :
    ∃ d ds names, fs.Chain true root (d :: ds) ∧ fs.list d = .ok names ∧ fs.realPath d = l := by
  have hlist : ∀ d ds, fs.Chain true root (d :: ds) → ∃ names, fs.list d = .ok names :=
    fun d ds hc => by
      obtain ⟨names, hl, -⟩ := walkFrom_of_failure_eq_none (walkFrom_of_chain hw hc).1
      exact ⟨names, hl⟩
  induction h with
  | top =>
    obtain ⟨names, hl⟩ := hlist root [] .root
    exact ⟨root, [], names, .root, hl, realPath_of_resolve htop⟩
  | @entry l m name hl hn hm ih =>
    obtain ⟨d, ds, names, hc, hd, rfl⟩ := ih
    rw [entries_of_list hd] at hn
    obtain ⟨hdir, rfl⟩ := (entryDirectory?_eq_some_iff (unusable?_child_of_list hd hn)
      (hlocal _ _ _ _ hc hd hn)).1 hm
    by_cases hv : fs.realPath (d.child name) ∈ (d :: ds).map fs.realPath
    · -- The walk is in this directory already: the chain up to there ends with it.
      obtain ⟨e, he, heq⟩ := List.mem_map.1 hv
      obtain ⟨es, hc⟩ := hc.of_mem he
      obtain ⟨names, hl⟩ := hlist e es hc
      exact ⟨e, es, names, hc, hl, heq⟩
    · have hc := Chain.enter hc rfl hd hn hdir hv
      obtain ⟨names, hl⟩ := hlist _ _ hc
      exact ⟨_, _, names, hc, hl, rfl⟩

/-- The links that are skipped lose nothing. A recursive walk is refused if and only if
    listing is denied to some reachable directory. If it does not fail, every file of a
    reachable directory that is looked for is yielded on some path: one that ends with
    its name, in a directory that is the reachable one. -/
theorem walk_reaches_all (fs : FileSystem) (extensions : List Text) (root : Path) (top : Location)
    (hroot : root.unusable? = none) (htop : fs.resolve root = .ok top)
    (hdir : fs.hasDirectory top = true) (hlocal : fs.ResolvesByEntries root) :
    ((fs.walk ⟨extensions, true⟩ root).IsRefused ↔
      ∃ l, fs.Reachable top l ∧ (Access.list, l) ∈ fs.denied) ∧
    (¬(fs.walk ⟨extensions, true⟩ root).IsRefused → ∀ l name, fs.Reachable top l →
      name ∈ fs.entries l → fs.entryDirectory? l name = none →
      ((pathOf l).child name).hasExtension extensions = true →
      ∃ p ∈ (fs.walk ⟨extensions, true⟩ root).files,
        p.names.getLast? = some name ∧ fs.resolve p.parent = .ok l) := by
  refine ⟨⟨?_, ?_⟩, fun hw l name hl hn hd hx => ?_⟩
  · rintro ⟨u, hu, -⟩
    obtain ⟨ds, hc, herror⟩ := chain_of_failure hu
    refine ⟨_, reachable_of_chain htop hlocal hc, ?_⟩
    by_contra hdenied
    cases herror.symm.trans (list_eq_ok_iff.2
      ⟨hc.unusable? hroot, _, hc.resolve htop, hc.hasDirectory htop hdir, hdenied, rfl⟩)
  · rintro ⟨l, hl, hdenied⟩
    by_contra hw
    obtain ⟨d, ds, names, hc, hlist, rfl⟩ :=
      chain_of_reachable htop hlocal (failure_of_not_isRefused hroot hw) hl
    obtain ⟨-, l, hr, -, hnot, -⟩ := list_eq_ok_iff.1 hlist
    exact hnot (realPath_of_resolve hr ▸ hdenied)
  · have hw := failure_of_not_isRefused hroot hw
    obtain ⟨d, ds, names, hc, hlist, rfl⟩ := chain_of_reachable htop hlocal hw hl
    rw [entries_of_list hlist] at hn
    refine ⟨d.child name, ?_, by simp [Path.child], ?_⟩
    · refine (mem_files_walk_iff hw).2 ⟨d, ds, names, name, hc, hlist, hn, rfl, ?_, ?_⟩
      · by_contra hdir
        have hp := unusable?_child_of_list hlist hn
        rw [(entryDirectory?_eq_some_iff hp (hlocal _ _ _ _ hc hlist hn)).2
          ⟨by simpa using hdir, rfl⟩] at hd
        cases hd
      · rwa [Path.hasExtension_child] at hx ⊢
    · rw [Path.parent_child]
      exact hc.resolve htop

theorem list_looped : looped.list (Path.ofText "d") = .ok ["up", "f"] := by cbv

theorem list_looped_up : looped.list (Path.ofText "d/up") = .ok ["d"] := by cbv

/-- The walk of `looped` is in its root, or there and behind the link. -/
theorem chain_looped {c : List Path} (h : looped.Chain true (Path.ofText "d") c) :
    c = [Path.ofText "d"] ∨ c = [Path.ofText "d/up", Path.ofText "d"] := by
  induction h with
  | root => exact .inl rfl
  | @enter d ds names name hc hr hl hn hd hv ih =>
    rcases ih with h | h <;> obtain ⟨rfl, rfl⟩ := List.cons.inj h
    · cases list_looped.symm.trans hl
      rcases List.mem_cons.1 hn with rfl | hn
      · exact .inr (by cbv)
      · cases List.mem_singleton.1 hn
        have hf : looped.isDirectory ((Path.ofText "d").child "f") = false := by cbv
        cases hf.symm.trans hd
    · cases list_looped_up.symm.trans hl
      cases List.mem_singleton.1 hn
      have hreal : looped.realPath ((Path.ofText "d/up").child "d") = ["d"] := by cbv
      have hroot : looped.realPath (Path.ofText "d") = ["d"] := by cbv
      exact absurd (by simp [hreal, hroot]) hv

theorem resolvesByEntries_looped : looped.ResolvesByEntries (Path.ofText "d") := by
  intro d ds names name hc hl hn
  rcases chain_looped hc with h | h <;> obtain ⟨rfl, rfl⟩ := List.cons.inj h
  · cases list_looped.symm.trans hl
    rcases List.mem_cons.1 hn with rfl | hn
    · cbv
    · cases List.mem_singleton.1 hn
      cbv
  · cases list_looped_up.symm.trans hl
    cases List.mem_singleton.1 hn
    cbv

/-- The walk skips its own root behind the link, and has the file there all the same. -/
theorem walk_reaches_all_looped :
    (Path.ofText "d").unusable? = none ∧ looped.resolve (Path.ofText "d") = .ok ["d"] ∧
      looped.hasDirectory ["d"] = true ∧ looped.ResolvesByEntries (Path.ofText "d") ∧
      looped.Reachable ["d"] [] ∧
      ∃ p ∈ (looped.walk ⟨[], true⟩ (Path.ofText "d")).files,
        p.names.getLast? = some "f" ∧ looped.resolve p.parent = .ok ["d"] := by
  have hroot : (Path.ofText "d").unusable? = none := by cbv
  have htop : looped.resolve (Path.ofText "d") = .ok ["d"] := by cbv
  have hdir : looped.hasDirectory ["d"] = true := by decide
  have hup : looped.Reachable ["d"] [] := @Reachable.entry _ _ _ _ "up" .top (by decide) (by cbv)
  have hback : looped.Reachable ["d"] ["d"] :=
    @Reachable.entry _ _ _ _ "d" hup (by decide) (by cbv)
  obtain ⟨hrefused, hall⟩ :=
    walk_reaches_all looped [] (Path.ofText "d") ["d"] hroot htop hdir resolvesByEntries_looped
  have hw : ¬(looped.walk ⟨[], true⟩ (Path.ofText "d")).IsRefused := fun h => by
    obtain ⟨l, -, hl⟩ := hrefused.1 h
    exact absurd hl List.not_mem_nil
  exact ⟨hroot, htop, hdir, resolvesByEntries_looped, hup,
    hall hw ["d"] "f" hback (by decide) (by cbv) rfl⟩

end KeyAudit.FileSystem
