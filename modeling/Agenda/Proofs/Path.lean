import Agenda.Path
import Agenda.Proofs.Text.Lines

/-!
Paths as lists of names. Joining puts the names of one path behind those of another, and the parent
of a path has the names in front of the last one that leads elsewhere.
-/

namespace Agenda.Path

variable {path base : String}

theorem isAbsolute_iff : isAbsolute path = true ↔ path.toList.head? = some '/' := by
  rw [isAbsolute, decide_eq_true_iff]

theorem names_of_toList {cs : List Char} (h : path.toList = cs) :
    names path = Lines.splitAt '/' (if cs.head? = some '/' then cs.drop 1 else cs) := by
  rw [names, h]
  by_cases hslash : cs.head? = some '/'
  · rw [if_pos hslash, if_pos (isAbsolute_iff.2 (h ▸ hslash))]
  · rw [if_neg hslash, if_neg fun habsolute => hslash (h ▸ isAbsolute_iff.1 habsolute)]

theorem exists_names_eq (path : String) : ∃ name rest, names path = name :: rest :=
  Lines.exists_splitAt_eq '/' _

theorem slash_not_mem_of_mem_names {name : List Char} (h : name ∈ names path) : '/' ∉ name :=
  Lines.not_mem_of_mem_splitAt h

/-! Joining. -/

theorem join_of_absolute (h : isAbsolute path = true) (base : String) : join base path = path := by
  rw [join, h, Bool.true_or, if_pos rfl]

theorem join_empty (path : String) : join "" path = path := by
  rw [join, decide_eq_true rfl, Bool.or_true, if_pos rfl]

/-- What a path is joined to may end with a slash already. -/
theorem toList_join (h : isAbsolute path = false) (hbase : base ≠ "") :
    ∃ stem, (base.toList = stem ∨ base.toList = stem ++ ['/']) ∧
      (join base path).toList = stem ++ '/' :: path.toList := by
  rw [join, h, Bool.false_or, if_neg (by simpa using hbase)]
  split
  · rename_i hlast
    obtain ⟨stem, hstem⟩ := List.getLast?_eq_some_iff.1 hlast
    refine ⟨stem, .inr hstem, ?_⟩
    rw [String.toList_append, hstem, List.append_assoc, List.singleton_append]
  · refine ⟨base.toList, .inl rfl, ?_⟩
    rw [String.toList_append, String.toList_append, List.append_assoc]
    rfl

theorem mem_of_mem_join {c : Char} (h : c ∈ (join base path).toList) :
    c ∈ base.toList ∨ c = '/' ∨ c ∈ path.toList := by
  rw [join] at h
  split at h
  · exact .inr (.inr h)
  · split at h
    · rw [String.toList_append, List.mem_append] at h
      exact h.imp_right .inr
    · rw [String.toList_append, String.toList_append, List.mem_append, List.mem_append] at h
      obtain (h | h) | h := h
      · exact .inl h
      · exact .inr (.inl (List.mem_singleton.1 h))
      · exact .inr (.inr h)

theorem suffix_join (base path : String) : path.toList <:+ (join base path).toList := by
  rw [join]
  split
  · exact List.suffix_refl _
  · split
    · rw [String.toList_append]
      exact List.suffix_append _ _
    · rw [String.toList_append]
      exact List.suffix_append _ _

theorem utf8ByteSize_le_join (base path : String) :
    path.utf8ByteSize ≤ (join base path).utf8ByteSize := by
  rw [join]
  split
  · exact Nat.le_refl _
  · split
    · rw [String.utf8ByteSize_append]
      exact Nat.le_add_left _ _
    · rw [String.utf8ByteSize_append]
      exact Nat.le_add_left _ _

theorem toList_ne_nil (h : base ≠ "") : base.toList ≠ [] :=
  fun hnil => h (String.toList_eq_nil_iff.1 hnil)

theorem head?_join (h : isAbsolute path = false) (hbase : base ≠ "") :
    (join base path).toList.head? = base.toList.head? := by
  obtain ⟨stem, hstem, hjoin⟩ := toList_join h hbase
  rw [hjoin]
  cases stem with
  | nil =>
      obtain hstem | hstem := hstem
      · exact absurd hstem (toList_ne_nil hbase)
      · rw [hstem]
        rfl
  | cons c stem => obtain hstem | hstem := hstem <;> rw [hstem] <;> rfl

theorem isAbsolute_join (h : isAbsolute path = false) (hbase : base ≠ "") :
    isAbsolute (join base path) = isAbsolute base := by
  rw [isAbsolute, isAbsolute, head?_join h hbase]

theorem join_ne_empty (hbase : base ≠ "") (path : String) : join base path ≠ "" := by
  intro hempty
  by_cases habsolute : isAbsolute path = true
  · rw [join_of_absolute habsolute] at hempty
    rw [hempty] at habsolute
    cases habsolute
  · have hhead := head?_join (Bool.eq_false_iff.2 habsolute) hbase
    rw [hempty, eq_comm] at hhead
    exact toList_ne_nil hbase (List.head?_eq_none_iff.1 hhead)

/-- The names in front of a slash. -/
def namesBefore (stem : List Char) : List (List Char) :=
  if stem = [] then []
  else Lines.splitAt '/' (if stem.head? = some '/' then stem.drop 1 else stem)

theorem names_of_append {stem cs : List Char} (h : path.toList = stem ++ '/' :: cs) :
    names path = namesBefore stem ++ Lines.splitAt '/' cs := by
  rw [names_of_toList h, namesBefore]
  cases stem with
  | nil => rfl
  | cons c stem =>
      rw [List.cons_append, List.head?_cons, List.head?_cons, if_neg (List.cons_ne_nil _ _)]
      split
      · exact Lines.splitAt_append_cons stem cs
      · exact Lines.splitAt_append_cons (c :: stem) cs

/-- The names of both are put together, but a slash that ends the first one counts once. -/
theorem names_join (h : isAbsolute path = false) (hbase : base ≠ "") :
    ∃ before, (names base = before ∨ names base = before ++ [[]]) ∧
      names (join base path) = before ++ names path := by
  obtain ⟨stem, hstem, hjoin⟩ := toList_join h hbase
  have hpath : names path = Lines.splitAt '/' path.toList := by
    rw [names, h, if_neg Bool.false_ne_true]
  refine ⟨namesBefore stem, ?_, by rw [names_of_append hjoin, hpath]⟩
  obtain hstem | hstem := hstem
  · have hne : stem ≠ [] := hstem ▸ toList_ne_nil hbase
    exact .inl (by rw [names_of_toList hstem, namesBefore, if_neg hne])
  · exact .inr (names_of_append hstem)

/-! Paths made of names. -/

theorem toList_ofNames (absolute : Bool) (ns : List (List Char)) :
    (ofNames absolute ns).toList = (if absolute then ['/'] else []) ++ ['/'].intercalate ns := by
  rw [ofNames, String.toList_ofList]

theorem ofNames_names (path : String) : ofNames (isAbsolute path) (names path) = path := by
  rw [ofNames, names, Lines.intercalate_splitAt]
  split
  · rename_i h
    obtain ⟨cs, hcs⟩ := List.head?_eq_some_iff.1 (isAbsolute_iff.1 h)
    rw [hcs, List.drop_one, List.tail_cons, List.singleton_append, ← hcs, String.ofList_toList]
  · rw [List.nil_append, String.ofList_toList]

/-- A relative path does not start with an empty name. -/
def Proper (absolute : Bool) (ns : List (List Char)) : Prop :=
  (∀ name ∈ ns, '/' ∉ name) ∧ (absolute = true ∨ ns.head? ≠ some [])

theorem Proper.of_append {absolute : Bool} {kept idle rest : List (List Char)}
    (h : Proper absolute (kept ++ idle ++ rest)) : Proper absolute kept := by
  rw [List.append_assoc] at h
  refine ⟨fun name hname => h.1 name (List.mem_append_left _ hname), h.2.imp_right fun hhead => ?_⟩
  cases kept with
  | nil => exact nofun
  | cons name kept => exact hhead

theorem names_ofNames {absolute : Bool} {ns : List (List Char)} (h : Proper absolute ns)
    (hne : ns ≠ []) :
    names (ofNames absolute ns) = ns ∧ isAbsolute (ofNames absolute ns) = absolute := by
  have hsplit := Lines.splitAt_intercalate hne h.1
  have hlist := toList_ofNames absolute ns
  cases absolute with
  | true =>
      refine ⟨?_, by rw [isAbsolute, hlist]; rfl⟩
      rw [names_of_toList hlist]
      exact hsplit
  | false =>
      have hhead : (['/'].intercalate ns).head? ≠ some '/' := by
        obtain ⟨name, rest, rfl⟩ := List.exists_cons_of_ne_nil hne
        have hname := h.2.resolve_left Bool.false_ne_true
        cases name with
        | nil => exact absurd rfl hname
        | cons c name =>
            have hc : c ≠ '/' := by
              rintro rfl
              exact h.1 _ List.mem_cons_self List.mem_cons_self
            cases rest with
            | nil => rw [List.intercalate_singleton]; exact fun heq => hc (Option.some.inj heq)
            | cons next rest =>
                rw [List.intercalate_cons_cons]
                exact fun heq => hc (Option.some.inj heq)
      refine ⟨?_, ?_⟩
      · rw [names_of_toList hlist]
        simp only [Bool.false_eq_true, if_false, List.nil_append, if_neg hhead]
        exact hsplit
      · rw [isAbsolute, hlist, decide_eq_false_iff_not]
        exact hhead

theorem proper_names (h : path ≠ "") : Proper (isAbsolute path) (names path) := by
  refine ⟨fun name hname => slash_not_mem_of_mem_names hname, ?_⟩
  by_cases habsolute : isAbsolute path = true
  · exact .inl habsolute
  · refine .inr ?_
    rw [names, if_neg habsolute]
    cases hcs : path.toList with
    | nil => exact absurd hcs (toList_ne_nil h)
    | cons c cs =>
        have hc : c ≠ '/' := by
          rintro rfl
          exact habsolute (isAbsolute_iff.2 (by rw [hcs]; rfl))
        obtain ⟨name, rest, hs⟩ := Lines.exists_splitAt_eq '/' cs
        rw [Lines.splitAt_cons_of_ne hc hs, List.head?_cons]
        exact fun heq => List.cons_ne_nil _ _ (Option.some.inj heq)

theorem intercalate_append {pieces pieces' : List (List Char)} (h : pieces ≠ [])
    (h' : pieces' ≠ []) : ['/'].intercalate (pieces ++ pieces') =
      ['/'].intercalate pieces ++ '/' :: ['/'].intercalate pieces' := by
  obtain ⟨next, rest, rfl⟩ := List.exists_cons_of_ne_nil h'
  induction pieces with
  | nil => contradiction
  | cons piece pieces ih =>
      cases pieces with
      | nil => rw [List.singleton_append, List.intercalate_cons_cons, List.intercalate_singleton,
          List.append_assoc, List.singleton_append]
      | cons second pieces =>
          have hrest := ih (List.cons_ne_nil _ _)
          rw [List.cons_append, List.cons_append, List.intercalate_cons_cons,
            List.intercalate_cons_cons, ← List.cons_append, hrest]
          simp only [List.append_assoc]

/-- A text with which a path starts, up to a slash. -/
def Leads (base path : String) : Prop :=
  base = "" ∨ base = "/" ∨ ∃ rest, path.toList = base.toList ++ '/' :: rest

theorem leads_ofNames {kept rest : List (List Char)} (h : names path = kept ++ rest)
    (hrest : rest ≠ []) : Leads (ofNames (isAbsolute path) kept) path := by
  by_cases hkept : kept = []
  · subst hkept
    cases isAbsolute path with
    | true => exact .inr (.inl rfl)
    | false => exact .inl rfl
  · refine .inr (.inr ⟨['/'].intercalate rest, ?_⟩)
    have hpath := toList_ofNames (isAbsolute path) (names path)
    rw [ofNames_names, h, intercalate_append hkept hrest, ← List.append_assoc] at hpath
    rw [hpath, toList_ofNames]

theorem Leads.mem {c : Char} (h : Leads base path) (hc : c ∈ base.toList) :
    c = '/' ∨ c ∈ path.toList := by
  obtain rfl | rfl | ⟨rest, h⟩ := h
  · cases hc
  · exact .inl (List.mem_singleton.1 hc)
  · rw [h]
    exact .inr (List.mem_append_left _ hc)

/-! Parents. -/

def IsDot (name : List Char) : Prop := name = [] ∨ name = ['.']

theorem isDot_of_isIdle {absolute : Bool} {before : List (List Char)} {name : List Char}
    (h : isIdle absolute before name = true) : IsDot name := by
  rw [isIdle, Bool.or_eq_true, Bool.and_eq_true, List.isEmpty_iff, beq_iff_eq] at h
  exact h.imp_right And.left

theorem dropIdle_cons {absolute : Bool} {name : List Char} (h : ¬ IsDot name)
    (before : List (List Char)) : dropIdle absolute (name :: before) = name :: before := by
  rw [dropIdle, if_neg fun hidle => h (isDot_of_isIdle hidle)]

theorem exists_dropIdle (absolute : Bool) (ns : List (List Char)) :
    ∃ idle, ns = idle ++ dropIdle absolute ns ∧ ∀ name ∈ idle, IsDot name := by
  induction ns with
  | nil => exact ⟨[], rfl, List.forall_mem_nil _⟩
  | cons name before ih =>
      rw [dropIdle]
      split
      · rename_i hidle
        obtain ⟨idle, heq, hall⟩ := ih
        refine ⟨name :: idle, ?_, List.forall_mem_cons.2 ⟨isDot_of_isIdle hidle, hall⟩⟩
        rw [List.cons_append, ← heq]
      · exact ⟨[], rfl, List.forall_mem_nil _⟩

/-- The parent of a path whose last name leads elsewhere. -/
theorem exists_parent {before : List (List Char)} {name : List Char}
    (h : names path = before ++ [name]) (hname : ¬ IsDot name) :
    ∃ kept idle, before = kept ++ idle ∧ (∀ name ∈ idle, IsDot name) ∧
      parent? path = some (ofNames (isAbsolute path) kept) ∧
      Leads (ofNames (isAbsolute path) kept) path := by
  obtain ⟨idle, heq, hall⟩ := exists_dropIdle (isAbsolute path) before.reverse
  have hbefore : before = (dropIdle (isAbsolute path) before.reverse).reverse ++ idle.reverse := by
    rw [← List.reverse_append, ← heq, List.reverse_reverse]
  refine ⟨(dropIdle (isAbsolute path) before.reverse).reverse, idle.reverse, hbefore, ?_, ?_, ?_⟩
  · exact fun name hmem => hall name (List.mem_reverse.1 hmem)
  · rw [parent?, h, List.reverse_append, List.reverse_singleton, List.singleton_append,
      withoutLast?, dropIdle_cons hname]
    rfl
  · have hnames : names path = (dropIdle (isAbsolute path) before.reverse).reverse ++
        (idle.reverse ++ [name]) := by rw [← List.append_assoc, ← hbefore, h]
    exact leads_ofNames hnames (List.append_ne_nil_of_right_ne_nil _ (List.cons_ne_nil _ _))

/-- Where a name is joined to a path that ends with a name, this path is the parent. -/
theorem parent?_join {before : List (List Char)} {name last : List Char}
    (hbase : names base = before ++ [last]) (hlast : ¬ IsDot last) (hpath : names path = [name])
    (hname : ¬ IsDot name) (hrelative : isAbsolute path = false) :
    parent? (join base path) = some base := by
  have hempty : ∀ before', names base ≠ before' ++ [[]] := fun before' heq =>
    hlast (.inl (List.singleton_inj.1 (List.append_inj' (hbase.symm.trans heq) rfl).2))
  have hgiven : base ≠ "" := by
    rintro rfl
    exact hempty [] rfl
  have hnames : names (join base path) = before ++ [last] ++ [name] := by
    obtain ⟨before', hbefore | hbefore, hjoin⟩ := names_join hrelative hgiven
    · rw [hjoin, hpath, ← hbefore, hbase]
    · exact absurd hbefore (hempty before')
  rw [parent?, hnames, isAbsolute_join hrelative hgiven, List.reverse_append, List.reverse_append,
    List.reverse_singleton, List.singleton_append, withoutLast?, dropIdle_cons hname,
    List.reverse_singleton, List.singleton_append]
  dsimp only
  rw [dropIdle_cons hlast, Option.map_some, List.reverse_cons, List.reverse_reverse, ← hbase,
    ofNames_names]

/-! Paths that start in the home folder. -/

def FromHome (path : String) : Prop := ['~', '/'] <+: path.toList

theorem FromHome.head? (h : FromHome path) : path.toList.head? = some '~' := by
  obtain ⟨rest, h⟩ := h
  rw [← h]
  rfl

theorem expandHome_of_not_fromHome (h : ¬ FromHome path) (home : Option String) :
    expandHome home path = path := by
  unfold expandHome
  split
  · rename_i rest hpath
    exact absurd ⟨rest, hpath.symm⟩ h
  · rfl

/-- One expansion is enough, unless the path of the home folder starts with a tilde itself. -/
theorem not_fromHome_expandHome {home : String} (hhome : home ≠ "")
    (htilde : home.toList.head? ≠ some '~') (path : String) :
    ¬ FromHome (expandHome (some home) path) := by
  unfold expandHome
  split
  · rename_i home' rest heq _
    cases heq
    intro hfrom
    by_cases habsolute : isAbsolute (String.ofList rest) = true
    · rw [join_of_absolute habsolute] at hfrom
      have hslash := isAbsolute_iff.1 habsolute
      rw [hfrom.head?] at hslash
      cases hslash
    · rw [← head?_join (Bool.eq_false_iff.2 habsolute) hhome] at htilde
      exact htilde hfrom.head?
  · rename_i hne
    rintro ⟨rest, hrest⟩
    exact hne home rest rfl hrest.symm

theorem tilde_prefix_congr {stem cs cs' : List Char} (h : ['~', '/'] <+: stem ++ '/' :: cs) :
    ['~', '/'] <+: stem ++ '/' :: cs' := by
  match stem with
  | [] => cases (List.cons_prefix_cons.1 h).1
  | [c] => exact List.cons_prefix_cons.2 ⟨(List.cons_prefix_cons.1 h).1, _, rfl⟩
  | c :: d :: stem =>
      obtain ⟨hc, h⟩ := List.cons_prefix_cons.1 h
      exact List.cons_prefix_cons.2 ⟨hc, (List.cons_prefix_cons.1 h).1 ▸ ⟨_, rfl⟩⟩

theorem not_fromHome_join {rest : String} (h : ¬ FromHome path) (hleads : Leads base path)
    (hrest : ¬ FromHome rest) : ¬ FromHome (join base rest) := by
  by_cases habsolute : isAbsolute rest = true
  · rwa [join_of_absolute habsolute]
  · obtain rfl | rfl | ⟨after, hpath⟩ := hleads
    · rwa [join_empty]
    · intro hfrom
      have hhead := hfrom.head?
      rw [head?_join (Bool.eq_false_iff.2 habsolute) (by decide)] at hhead
      cases hhead
    · by_cases hbase : base = ""
      · rwa [hbase, join_empty]
      · obtain ⟨stem, hstem, hjoin⟩ := toList_join (Bool.eq_false_iff.2 habsolute) hbase
        intro hfrom
        rw [FromHome, hjoin] at hfrom
        refine h ?_
        rw [FromHome, hpath]
        obtain hstem | hstem := hstem
        · rw [hstem]
          exact tilde_prefix_congr hfrom
        · rw [hstem, List.append_assoc]
          exact tilde_prefix_congr hfrom

end Agenda.Path
