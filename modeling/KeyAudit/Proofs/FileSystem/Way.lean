import Mathlib
import KeyAudit.Proofs.Walk.Reach

/-!
# The way to the end of a path

When names are followed, the file system is asked for the nodes of some locations only: those
of the directories on the way, of the links that are followed and of the end. They are the
*way* of the names (`way`).

* Nothing else matters: file systems that agree on the way, in the nodes and in what may be
  searched, let it lead to the same end, or to none for the same reason (`follow_eq_of_way`).
* If names lead somewhere (`Leads`), the way of more names goes there first, and on with the
  links that may still be followed (`Leads.way_append`).
* A way that leads somewhere comes by nothing that is not there (`Leads.notMem_way`), and if it
  leads to a directory, by nothing but directories and links to them
  (`Leads.leadsToDirectory`).
-/

namespace KeyAudit.FileSystem

/-- The locations that are come by when names are followed. -/
def way (fs : FileSystem) (budget : Nat) (here : Location) : List Text → List Location
  | [] => [here]
  | name :: rest =>
    here ::
      if !fs.admits here then []
      else if name = "." then way fs budget here rest
      else if name = ".." then way fs budget here.tail rest
      else if FileName.size name > nameLimit then []
      else
        let there := FileName.canonical name :: here
        match fs.node? there with
        | none => [there]
        | some (.link target) =>
          there :: match budget with
            | 0 => []
            | budget + 1 =>
              way fs budget (targetStart here target) (targetNames target ++ rest)
        | some _ => way fs budget there rest
termination_by names => (budget, names.length)

/-- The locations that are come by on a path. -/
def pathWay (fs : FileSystem) (p : Path) : List Location :=
  fs.way linkLimit (fs.start p.anchor) p.names

/-- The locations that are come by from a link to where it leads. -/
def linkWay (fs : FileSystem) (l : Location) : List Location :=
  match fs.node? l with
  | some (.link target) =>
    fs.way (linkLimit - 1) (targetStart l.tail target) (targetNames target)
  | _ => []

/-- There is a link at a location, and it leads to a directory. -/
def LeadsToDirectory (fs : FileSystem) (l : Location) : Prop :=
  ∃ target k, fs.node? l = some (.link target) ∧
    fs.follow (linkLimit - 1) (targetStart l.tail target) (targetNames target) = .ok k ∧
    fs.hasDirectory k = true

/-- A name that is looked up in a directory. -/
def IsLookedUp (name : Text) : Prop :=
  name ≠ "." ∧ name ≠ ".." ∧ FileName.size name ≤ nameLimit

/-- Names lead to a location, step by step. -/
inductive Leads (fs : FileSystem) (l : Location) : Nat → Location → List Text → Prop
  /-- There are no more names. -/
  | ended {budget} : Leads fs l budget l []
  /-- The name `.` stands for the directory itself. -/
  | stays {budget here rest} (hd : fs.admits here = true) :
      Leads fs l budget here rest → Leads fs l budget here ("." :: rest)
  /-- The name `..` leads to the directory around it. -/
  | leaves {budget here rest} (hd : fs.admits here = true) :
      Leads fs l budget here.tail rest → Leads fs l budget here (".." :: rest)
  /-- A link is followed, and then the names after it. -/
  | links {budget here name target rest} (hd : fs.admits here = true)
      (hname : IsLookedUp name)
      (hn : fs.node? (FileName.canonical name :: here) = some (.link target)) :
      Leads fs l budget (targetStart here target) (targetNames target ++ rest) →
      Leads fs l (budget + 1) here (name :: rest)
  /-- What is no link is entered. -/
  | enters {budget here name node rest} (hd : fs.admits here = true)
      (hname : IsLookedUp name)
      (hn : fs.node? (FileName.canonical name :: here) = some node)
      (hlink : ∀ target, node ≠ .link target) :
      Leads fs l budget (FileName.canonical name :: here) rest →
      Leads fs l budget here (name :: rest)

variable {fs fs' : FileSystem} {budget budget' : Nat} {here k l : Location}
  {names xs ys : List Text} {name : Text} {p : Path}

/-! ## Ways that end -/

theorem leads_of_follow (h : fs.follow budget here names = .ok l) :
    fs.Leads l budget here names := by
  fun_induction follow fs budget here names with
  | case1 budget here =>
    cases h
    exact .ended
  | case3 budget here rest hd ih => exact .stays (by simpa using hd) (ih h)
  | case4 budget here rest hd hdot ih => exact .leaves (by simpa using hd) (ih h)
  | case8 here name rest hd hdot hdots hsize there target hn budget ih =>
    exact .links (by simpa using hd) ⟨hdot, hdots, not_lt.1 hsize⟩ hn (ih h)
  | case9 budget here name rest hd hdot hdots hsize there node hlink hn ih =>
    exact .enters (by simpa using hd) ⟨hdot, hdots, not_lt.1 hsize⟩ hn hlink (ih h)
  | case2 | case5 | case6 | case7 => cases h

theorem follow_of_leads (h : fs.Leads l budget here names) :
    fs.follow budget here names = .ok l := by
  induction h with
  | ended => rw [follow]
  | stays hd _ ih => rw [follow, if_neg (by simp [hd]), if_pos rfl, ih]
  | leaves hd _ ih => rw [follow, if_neg (by simp [hd]), if_neg (by decide), if_pos rfl, ih]
  | links hd hname hn _ ih =>
    obtain ⟨hdot, hdots, hsize⟩ := hname
    rw [follow, if_neg (by simp [hd]), if_neg hdot, if_neg hdots, if_neg (not_lt.2 hsize)]
    simp only [hn, ih]
  | @enters budget here name node rest hd hname hn hlink _ ih =>
    obtain ⟨hdot, hdots, hsize⟩ := hname
    rw [follow, if_neg (by simp [hd]), if_neg hdot, if_neg hdots, if_neg (not_lt.2 hsize)]
    cases node with
    | link target => exact absurd rfl (hlink target)
    | file content => simp only [hn, ih]
    | directory => simp only [hn, ih]

/-! ## Steps of a way -/

theorem mem_way_here (fs : FileSystem) (budget : Nat) (here : Location) (names : List Text) :
    here ∈ fs.way budget here names := by
  cases names with
  | nil => rw [way]; exact List.mem_singleton.2 rfl
  | cons name rest => rw [way]; exact List.mem_cons_self

section

variable (hd : fs.admits here = true)
include hd

theorem way_dot (budget : Nat) (rest : List Text) :
    fs.way budget here ("." :: rest) = here :: fs.way budget here rest := by
  rw [way, if_neg (by simp [hd]), if_pos rfl]

theorem way_dots (budget : Nat) (rest : List Text) :
    fs.way budget here (".." :: rest) = here :: fs.way budget here.tail rest := by
  rw [way, if_neg (by simp [hd]), if_neg (by decide), if_pos rfl]

theorem way_link (hname : IsLookedUp name) {target : Text}
    (hn : fs.node? (FileName.canonical name :: here) = some (.link target)) (budget : Nat)
    (rest : List Text) :
    fs.way (budget + 1) here (name :: rest) = here :: (FileName.canonical name :: here) ::
      fs.way budget (targetStart here target) (targetNames target ++ rest) := by
  obtain ⟨hdot, hdots, hsize⟩ := hname
  rw [way, if_neg (by simp [hd]), if_neg hdot, if_neg hdots, if_neg (not_lt.2 hsize)]
  simp only [hn]

theorem way_node (hname : IsLookedUp name) {node : Node}
    (hn : fs.node? (FileName.canonical name :: here) = some node)
    (hlink : ∀ target, node ≠ .link target) (budget : Nat) (rest : List Text) :
    fs.way budget here (name :: rest) =
      here :: fs.way budget (FileName.canonical name :: here) rest := by
  obtain ⟨hdot, hdots, hsize⟩ := hname
  rw [way, if_neg (by simp [hd]), if_neg hdot, if_neg hdots, if_neg (not_lt.2 hsize)]
  cases node with
  | link target => exact absurd rfl (hlink target)
  | file content => simp only [hn]
  | directory => simp only [hn]

end

/-! ## Nothing else matters -/

theorem hasDirectory_congr (h : fs'.node? l = fs.node? l) :
    fs'.hasDirectory l = fs.hasDirectory l := by
  rw [hasDirectory, hasDirectory, h]

theorem ne_of_hasDirectory (hk : fs.hasDirectory k = false) (hl : fs.hasDirectory l = true) :
    k ≠ l := fun h => Bool.false_ne_true (hk.symm.trans (h ▸ hl))

theorem ne_of_admits (hk : fs.hasDirectory k = false) (hl : fs.admits l = true) : k ≠ l :=
  ne_of_hasDirectory hk (hasDirectory_of_admits hl)

theorem barrier_congr (h : fs'.node? l = fs.node? l) : fs'.barrier l = fs.barrier l := by
  rw [barrier, barrier, hasDirectory_congr h]

/-- File systems that agree on the way let it lead to the same end, and have the same way
    there. -/
theorem follow_eq_of_way (h : ∀ k ∈ fs.way budget here names, fs'.node? k = fs.node? k)
    (hadmits : ∀ k ∈ fs.way budget here names, fs'.admits k = fs.admits k) :
    fs'.follow budget here names = fs.follow budget here names ∧
      fs'.way budget here names = fs.way budget here names := by
  induction budget, here, names using follow.induct fs <;>
    have hhere := hadmits _ (mem_way_here ..) <;>
    have hbarrier := barrier_congr (h _ (mem_way_here ..)) <;>
    rw [follow, follow, way, way] <;> rw [way] at h hadmits <;>
    simp_all +zetaDelta [Nat.not_lt.2]
  case case9 budget here name rest there node hd hdot hdots hsize hlink hn ih =>
    have hthere : fs'.node? (FileName.canonical name :: here) = some node :=
      (h.2 _ (mem_way_here ..)).trans hn
    simp only [hthere, and_self]

/-! ## More links and more names -/

/-- With more links that may be followed, the way may go on. -/
theorem way_subset_add (fs : FileSystem) (budget more : Nat) (here : Location)
    (names : List Text) : fs.way budget here names ⊆ fs.way (budget + more) here names := by
  induction budget, here, names using follow.induct fs <;> rw [way, way] <;>
    simp_all +zetaDelta [Nat.not_lt.2, Nat.add_right_comm]

theorem way_subset_of_le (h : budget ≤ budget') (here : Location) (names : List Text) :
    fs.way budget here names ⊆ fs.way budget' here names := by
  rw [← Nat.add_sub_cancel' h]
  exact fs.way_subset_add _ _ _ _

/-- Where names lead with some links, they also lead with more. -/
theorem follow_of_le (h : fs.follow budget here names = .ok l) (hle : budget ≤ budget') :
    fs.follow budget' here names = .ok l := by
  obtain ⟨used, hu, hfollow⟩ := follow_append h
  have hrest := hfollow (budget' - used) []
  rwa [Nat.add_sub_cancel' (hu.trans hle), List.append_nil, follow] at hrest

namespace Leads

/-- Names that lead somewhere use up some of the links that may be followed. The way of more
    names goes there, and on from there with the others. -/
theorem way_append (h : fs.Leads l budget here names) :
    ∃ used ≤ budget, ∀ more rest, fs.way (used + more) here (names ++ rest) ⊆
      fs.way budget here names ++ fs.way more l rest := by
  induction h with
  | ended =>
    refine ⟨0, Nat.zero_le _, fun more rest => ?_⟩
    rw [Nat.zero_add, List.nil_append]
    exact List.subset_append_right _ _
  | stays hd _ ih =>
    obtain ⟨used, hu, ih⟩ := ih
    refine ⟨used, hu, fun more ys => ?_⟩
    rw [List.cons_append, way_dot hd, way_dot hd]
    exact List.cons_subset_cons _ (ih more ys)
  | leaves hd _ ih =>
    obtain ⟨used, hu, ih⟩ := ih
    refine ⟨used, hu, fun more ys => ?_⟩
    rw [List.cons_append, way_dots hd, way_dots hd]
    exact List.cons_subset_cons _ (ih more ys)
  | links hd hname hn _ ih =>
    -- One link more has been followed than the names of its target take.
    obtain ⟨used, hu, ih⟩ := ih
    refine ⟨used + 1, Nat.succ_le_succ hu, fun more ys => ?_⟩
    rw [List.cons_append, Nat.add_right_comm, way_link hd hname hn, way_link hd hname hn,
      ← List.append_assoc]
    exact List.cons_subset_cons _ (List.cons_subset_cons _ (ih more ys))
  | enters hd hname hn hlink _ ih =>
    obtain ⟨used, hu, ih⟩ := ih
    refine ⟨used, hu, fun more ys => ?_⟩
    rw [List.cons_append, way_node hd hname hn hlink, way_node hd hname hn hlink]
    exact List.cons_subset_cons _ (ih more ys)

/-- The end of a way is on it. -/
theorem mem_way (h : fs.Leads l budget here names) : l ∈ fs.way budget here names := by
  induction h with
  | ended => exact mem_way_here ..
  | stays hd _ ih => exact way_dot hd _ _ ▸ List.mem_cons_of_mem _ ih
  | leaves hd _ ih => exact way_dots hd _ _ ▸ List.mem_cons_of_mem _ ih
  | links hd hname hn _ ih =>
    exact way_link hd hname hn _ _ ▸ List.mem_cons_of_mem _ (List.mem_cons_of_mem _ ih)
  | enters hd hname hn hlink _ ih =>
    exact way_node hd hname hn hlink _ _ ▸ List.mem_cons_of_mem _ ih

/-- What is not there is not on a way that does not end there. -/
theorem notMem_way (h : fs.Leads l budget here names) (hk : fs.node? k = none) (hkl : k ≠ l) :
    k ∉ fs.way budget here names := by
  have hdir : fs.hasDirectory k = false := by rw [hasDirectory, hk]
  have hthere : ∀ m node, fs.node? m = some node → k ≠ m := by
    rintro m node hm rfl
    exact Option.some_ne_none _ (hm.symm.trans hk)
  induction h with
  | ended => rw [way]; exact mt List.mem_singleton.1 hkl
  | stays hd _ ih =>
    rw [way_dot hd]
    exact List.not_mem_cons_of_ne_of_not_mem (ne_of_admits hdir hd) ih
  | leaves hd _ ih =>
    rw [way_dots hd]
    exact List.not_mem_cons_of_ne_of_not_mem (ne_of_admits hdir hd) ih
  | links hd hname hn _ ih =>
    rw [way_link hd hname hn]
    exact List.not_mem_cons_of_ne_of_not_mem (ne_of_admits hdir hd)
      (List.not_mem_cons_of_ne_of_not_mem (hthere _ _ hn) ih)
  | enters hd hname hn hlink _ ih =>
    rw [way_node hd hname hn hlink]
    exact List.not_mem_cons_of_ne_of_not_mem (ne_of_admits hdir hd) ih

/-- The first of the names that lead to a directory lead to one. -/
theorem exists_leads_of_append (h : fs.Leads l budget here (xs ++ ys))
    (hl : fs.hasDirectory l = true) :
    ∃ m, fs.Leads m budget here xs ∧ fs.hasDirectory m = true := by
  generalize hnames : xs ++ ys = names at h
  induction h generalizing xs with
  | ended =>
    cases (List.append_eq_nil_iff.1 hnames).1
    exact ⟨l, .ended, hl⟩
  | @stays budget here rest hd _ ih =>
    cases xs with
    | nil => exact ⟨here, .ended, hasDirectory_of_admits hd⟩
    | cons x xs =>
      obtain ⟨rfl, rfl⟩ := List.cons.inj hnames
      obtain ⟨m, hm, hdir⟩ := ih rfl
      exact ⟨m, .stays hd hm, hdir⟩
  | @leaves budget here rest hd _ ih =>
    cases xs with
    | nil => exact ⟨here, .ended, hasDirectory_of_admits hd⟩
    | cons x xs =>
      obtain ⟨rfl, rfl⟩ := List.cons.inj hnames
      obtain ⟨m, hm, hdir⟩ := ih rfl
      exact ⟨m, .leaves hd hm, hdir⟩
  | @links budget here name target rest hd hname hn _ ih =>
    cases xs with
    | nil => exact ⟨here, .ended, hasDirectory_of_admits hd⟩
    | cons x xs =>
      obtain ⟨rfl, rfl⟩ := List.cons.inj hnames
      obtain ⟨m, hm, hdir⟩ := ih (List.append_assoc (targetNames target) xs ys)
      exact ⟨m, .links hd hname hn hm, hdir⟩
  | @enters budget here name node rest hd hname hn hlink _ ih =>
    cases xs with
    | nil => exact ⟨here, .ended, hasDirectory_of_admits hd⟩
    | cons x xs =>
      obtain ⟨rfl, rfl⟩ := List.cons.inj hnames
      obtain ⟨m, hm, hdir⟩ := ih rfl
      exact ⟨m, .enters hd hname hn hlink hm, hdir⟩

/-- A way that ends at a directory comes by nothing but directories and links to them. -/
theorem leadsToDirectory (h : fs.Leads l budget here names) (hl : fs.hasDirectory l = true)
    (hb : budget ≤ linkLimit) (hk : fs.hasDirectory k = false)
    (hm : k ∈ fs.way budget here names) : fs.LeadsToDirectory k := by
  induction h with
  | ended =>
    rw [way] at hm
    exact absurd (List.mem_singleton.1 hm) (ne_of_hasDirectory hk hl)
  | stays hd _ ih =>
    rw [way_dot hd] at hm
    exact ih hb ((List.mem_cons.1 hm).resolve_left (ne_of_admits hk hd))
  | leaves hd _ ih =>
    rw [way_dots hd] at hm
    exact ih hb ((List.mem_cons.1 hm).resolve_left (ne_of_admits hk hd))
  | @links budget here name target rest hd hname hn hrest ih =>
    rw [way_link hd hname hn] at hm
    have hb' : budget ≤ linkLimit - 1 := Nat.le_sub_one_of_lt hb
    replace hm := (List.mem_cons.1 hm).resolve_left (ne_of_admits hk hd)
    rcases List.mem_cons.1 hm with rfl | hm
    · -- This is the link: what its target leads to begins the rest of the way.
      obtain ⟨m, hleads, hdir⟩ := hrest.exists_leads_of_append hl
      exact ⟨target, m, hn, follow_of_le (follow_of_leads hleads) hb', hdir⟩
    · exact ih (hb'.trans (Nat.sub_le _ _)) hm
  | enters hd hname hn hlink _ ih =>
    rw [way_node hd hname hn hlink] at hm
    exact ih hb ((List.mem_cons.1 hm).resolve_left (ne_of_admits hk hd))

end Leads

/-- The way of one name comes by the directory where it begins and by what has the name there,
    and if that is a link, by what this comes by. -/
theorem mem_way_singleton (hdot : name ≠ ".") (hdots : name ≠ "..") (hb : budget ≤ linkLimit)
    (hk : k ∈ fs.way budget here [name]) :
    k = here ∨ k = FileName.canonical name :: here ∨
      k ∈ fs.linkWay (FileName.canonical name :: here) := by
  rw [way, if_neg hdot, if_neg hdots] at hk
  rcases List.mem_cons.1 hk with rfl | hk
  · exact .inl rfl
  refine .inr ?_
  split at hk
  · cases hk
  split at hk
  · cases hk
  cases hn : fs.node? (FileName.canonical name :: here) with
  | none =>
    simp only [hn] at hk
    exact .inl (List.mem_singleton.1 hk)
  | some node =>
    cases node with
    | link target =>
      simp only [hn] at hk
      refine (List.mem_cons.1 hk).imp id fun hk => ?_
      rw [linkWay, hn]
      cases budget with
      | zero => cases hk
      | succ budget =>
        rw [List.append_nil] at hk
        exact way_subset_of_le (Nat.le_sub_one_of_lt hb) _ _ hk
    | file content =>
      simp only [hn, way] at hk
      exact .inl (List.mem_singleton.1 hk)
    | directory =>
      simp only [hn, way] at hk
      exact .inl (List.mem_singleton.1 hk)

/-- A path leads to nothing that it does not come by. -/
theorem ne_of_resolve (hp : k ∉ fs.pathWay p) (hr : fs.resolve p = .ok l) : l ≠ k := by
  rintro rfl
  rw [FileSystem.resolve] at hr
  split at hr
  · cases hr
  · exact hp (leads_of_follow hr).mem_way

/-- Only nodes are links. -/
theorem notMem_linkWay (h : ∀ n ∈ fs.nodes, k ∉ fs.linkWay n.1) (l : Location) :
    k ∉ fs.linkWay l := by
  intro hk
  cases hn : fs.node? l with
  | none => rw [linkWay, hn] at hk; cases hk
  | some node =>
    by_cases hl : l = []
    · rw [hl] at hk
      cases hk
    · rw [node?, if_neg hl] at hn
      obtain ⟨m, hm, rfl⟩ := List.mem_map.1 (mem_of_lookup hn)
      exact h m hm hk

end KeyAudit.FileSystem
