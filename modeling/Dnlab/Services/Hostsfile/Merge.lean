import Dnlab.Services.Hostsfile
import Mathlib.Data.List.Find

/-!
# The merge of the names

What `collect_hosts_entries` makes of the blocks of a lab. The loop over the lines of a
text finds the entries between the markers of the lab (`parseLines_eq`), which are not
those of another lab (`isMark_inj`). The merge keeps the first entry of each name, where
there may be one for each family: nothing is lost just when no name has both
(`keeps_both_iff`).
-/

namespace Dnlab.Hostsfile

/-! ## Blocks -/

section Blocks

variable {labName labName' : String} {mark mark' : Mark} {line : String}

/-- A block is open after some lines: the first one begins it, and no other one ends it. -/
def Opens (labName : String) : (lines : List String) → Prop
  | [] => False
  | line :: lines => isMark .start labName line ∧ ∀ l ∈ lines, ¬isMark .finish labName l

instance : DecidablePred (Opens labName)
  | [] => inferInstanceAs (Decidable False)
  | line :: lines => inferInstanceAs
    (Decidable (isMark .start labName line ∧ ∀ l ∈ lines, ¬isMark .finish labName l))

/-- What comes after some lines is in a block of the lab: one was begun, and not ended since. A block
    that is never ended runs to the end of the text. -/
def InBlock (labName : String) (before : List String) : Prop :=
  ∃ lines ∈ before.tails, Opens labName lines

instance {before : List String} : Decidable (InBlock labName before) :=
  inferInstanceAs (Decidable (∃ lines ∈ before.tails, Opens labName lines))

/-- The entries in the blocks of a lab, in lines that come after others. -/
def entriesAfter (labName : String) : (before lines : List String) → List HostEntry
  | _, [] => []
  | before, line :: lines =>
    (if InBlock labName before then (entryOf line).toList else []) ++
      entriesAfter labName (before ++ [line]) lines

theorem opens_concat {lines : List String} (hne : lines ≠ []) :
    Opens labName (lines ++ [line]) ↔ Opens labName lines ∧ ¬isMark .finish labName line := by
  obtain ⟨first, rest, rfl⟩ := List.exists_cons_of_ne_nil hne
  rw [List.cons_append, Opens, Opens, List.forall_mem_append, List.forall_mem_singleton, and_assoc]

theorem inBlock_concat {before : List String} :
    InBlock labName (before ++ [line]) ↔
      isMark .start labName line ∨ InBlock labName before ∧ ¬isMark .finish labName line := by
  simp only [InBlock, List.mem_tails, List.suffix_concat_iff]
  constructor
  · rintro ⟨lines, rfl | ⟨rest, rfl, hsuffix⟩, hopens⟩
    · exact absurd hopens id
    · rcases eq_or_ne rest [] with rfl | hne
      · exact .inl hopens.1
      · obtain ⟨hrest, hfinish⟩ := (opens_concat hne).1 hopens
        exact .inr ⟨⟨rest, hsuffix, hrest⟩, hfinish⟩
  · rintro (hstart | ⟨⟨lines, hsuffix, hopens⟩, hfinish⟩)
    · exact ⟨[line], .inr ⟨[], rfl, List.nil_suffix⟩, hstart, List.forall_mem_nil _⟩
    · have hne : lines ≠ [] := fun h => by rw [h] at hopens; exact hopens
      exact ⟨lines ++ [line], .inr ⟨lines, rfl, hsuffix⟩, (opens_concat hne).2 ⟨hopens, hfinish⟩⟩

theorem head_of_isMark (h : isMark mark labName line) : line.toList.head? = some '#' := by
  by_contra hne
  rw [isMark, afterHashes, if_neg hne] at h
  cases h

/-- There is no entry in the line of a marker. -/
theorem entryOf_of_isMark (h : isMark mark labName line) : entryOf line = none := by
  obtain ⟨rest, hline⟩ : ∃ rest, line.toList = '#' :: rest := by
    rcases hlist : line.toList with _ | ⟨c, rest⟩
    · have hhead := head_of_isMark h
      rw [hlist] at hhead
      cases hhead
    · have hhead := head_of_isMark h
      rw [hlist] at hhead
      exact ⟨rest, by rw [Option.some.inj hhead]⟩
  rw [entryOf, hline]
  rfl

/-- The loop finds the entries in the blocks. -/
theorem parseLines_eq {inside : Bool} {before : List String}
    (h : inside = true ↔ InBlock labName before) (lines : List String) :
    parseLines labName inside lines = entriesAfter labName before lines := by
  induction lines generalizing inside before with
  | nil => rfl
  | cons line lines ih =>
    rw [parseLines, entriesAfter]
    by_cases hstart : isMark .start labName line
    · rw [if_pos hstart, entryOf_of_isMark hstart, Option.toList_none, ite_self, List.nil_append]
      exact ih (iff_of_true rfl (inBlock_concat.2 (.inl hstart)))
    · rw [if_neg hstart]
      by_cases hfinish : isMark .finish labName line
      · rw [if_pos hfinish, entryOf_of_isMark hfinish, Option.toList_none, ite_self, List.nil_append]
        refine ih (iff_of_false Bool.false_ne_true fun hin => ?_)
        exact (inBlock_concat.1 hin).elim hstart fun hin => hin.2 hfinish
      · have hnext : inside = true ↔ InBlock labName (before ++ [line]) := by
          rw [inBlock_concat, or_iff_right hstart, and_iff_left hfinish, h]
        rw [if_neg hfinish, ← ih hnext]
        by_cases hin : InBlock labName before
        · rw [if_pos (h.2 hin), if_pos hin]
        · rw [if_neg (mt h.1 hin), if_neg hin, List.nil_append]

/-- The entries in the blocks of a lab in a text. -/
theorem parseHostsBlock_eq (text labName : String) :
    parseHostsBlock text labName = entriesAfter labName [] (linesOf text) :=
  parseLines_eq (iff_of_false Bool.false_ne_true (by rintro ⟨_, hmem, hopens⟩; simp_all [Opens])) _

/-! ## Markers -/

theorem hyphen_notMem_word (mark : Mark) : '-' ∉ mark.word.toList := by
  rcases mark with _ | _ <;> decide

theorem mem_dropWhile {p : Char → Bool} {c : Char} {l : List Char} (hmem : c ∈ l) (hc : p c = false) :
    c ∈ l.dropWhile p := by
  rw [← List.takeWhile_append_dropWhile (p := p) (l := l), List.mem_append] at hmem
  refine hmem.resolve_left fun htake => ?_
  rw [List.mem_takeWhile_imp htake] at hc
  cases hc

/-- There is no hyphen between a label and the end of the line. -/
theorem hyphen_notMem_of_isRule {l : List Char} (h : isRule l) : '-' ∉ l := by
  intro hmem
  rw [isRule, afterHashes] at h
  split_ifs at h
  · have hrest := mem_dropWhile (p := Text.isSpace) (mem_dropWhile (p := (· = '#'))
      (mem_dropWhile (p := Text.isSpace) hmem (by decide)) (by decide)) (by decide)
    rw [of_decide_eq_true h] at hrest
    exact List.not_mem_nil hrest

/-- A marker is a label, whose last hyphen is before the word, and a rule. -/
theorem exists_of_isMark (h : isMark mark labName line) : ∃ rest rule,
    afterHashes line.toList = some rest ∧
      rest = ("CLAB-".toList ++ labName.toList) ++ '-' :: (mark.word.toList ++ rule) ∧
      '-' ∉ mark.word.toList ++ rule := by
  rw [isMark] at h
  split at h
  · rename_i rest hrest
    obtain ⟨hlabel, hrule⟩ := Bool.and_eq_true_iff.1 h
    obtain ⟨rule, rfl⟩ := List.isPrefixOf_iff_prefix.1 hlabel
    rw [List.drop_left] at hrule
    refine ⟨_, rule, hrest, by rw [label]; simp, fun hmem => ?_⟩
    exact (List.mem_append.1 hmem).elim (hyphen_notMem_word mark) (hyphen_notMem_of_isRule hrule)
  · cases h

/-- A line is a marker of one lab only. -/
theorem isMark_inj (h : isMark mark labName line) (h' : isMark mark' labName' line) :
    labName' = labName := by
  obtain ⟨rest, rule, hrest, hline, hhyphen⟩ := exists_of_isMark h
  obtain ⟨rest', rule', hrest', hline', hhyphen'⟩ := exists_of_isMark h'
  obtain rfl : rest = rest' := Option.some.inj (hrest.symm.trans hrest')
  have hlabel := ((Text.append_sep_inj' hhyphen' hhyphen).1 (hline'.symm.trans hline)).1
  exact String.toList_inj.1 (List.append_cancel_left hlabel)

end Blocks

/-! ## The merge -/

/-- The entries in the blocks of a lab on all hosts, in order. -/
def ownEntries (labName : String) (clients : Clients) : List HostEntry :=
  (orderedHosts clients).flatMap fun host =>
    match (clients.get? host).join with
    | some text => entriesAfter labName [] (linesOf text)
    | none => []

section Merge

variable {entries : List HostEntry} {seen : Dict String HostEntry}

/-- Every entry is under its name. -/
def Filed (seen : Dict String HostEntry) : Prop := ∀ name e, seen.get? name = some e → e.name = name

theorem filed_keepFirst (h : Filed seen) (e : HostEntry) : Filed (keepFirst seen e) := by
  rw [keepFirst]
  split
  · exact h
  · intro name e' hget
    rw [Dict.get?_set] at hget
    split at hget
    · rename_i hname
      rw [hname, Option.some.inj hget]
    · exact h name e' hget

theorem filed_foldl (h : Filed seen) (entries : List HostEntry) :
    Filed (entries.foldl keepFirst seen) := by
  induction entries generalizing seen with
  | nil => exact h
  | cons e entries ih => exact ih (filed_keepFirst h e)

theorem get?_keepFirst (e : HostEntry) (name : String) :
    (keepFirst seen e).get? name = (seen.get? name).or (if e.name = name then some e else none) := by
  rw [keepFirst]
  by_cases hname : e.name = name
  · subst hname
    rw [if_pos rfl]
    rcases hget : seen.get? e.name with _ | e'
    · rw [if_neg (by rw [Dict.contains, hget]; exact Bool.false_ne_true), Dict.get?_set_self]
      rfl
    · rw [if_pos (by rw [Dict.contains, hget]; rfl), hget]
      rfl
  · rw [if_neg hname, Option.or_none]
    split
    · rfl
    · exact Dict.get?_set_of_ne _ _ (Ne.symm hname)

/-- The first entry of each name is kept. -/
theorem get?_foldl_keepFirst (entries : List HostEntry) (name : String) :
    (entries.foldl keepFirst seen).get? name =
      (seen.get? name).or (entries.find? fun e => e.name = name) := by
  induction entries generalizing seen with
  | nil => exact (Option.or_none).symm
  | cons e entries ih =>
    rw [List.foldl_cons, ih, get?_keepFirst, Option.or_assoc, List.find?_cons]
    by_cases hname : e.name = name
    · simp [hname]
    · simp [hname]

variable {labName : String} {clients : Clients}

theorem collectHostsEntries_eq :
    collectHostsEntries labName clients = ((ownEntries labName clients).foldl keepFirst ∅).values := by
  rw [collectHostsEntries, ownEntries, List.foldl_flatMap]
  congr 2
  funext seen host
  rw [collectHost]
  rcases (clients.get? host).join with _ | text
  · rfl
  · exact congrArg (List.foldl keepFirst seen) (parseHostsBlock_eq text labName)

/-- An entry is kept if it is the first of its name. -/
theorem mem_collectHostsEntries {e : HostEntry} : e ∈ collectHostsEntries labName clients ↔
    (ownEntries labName clients).find? (fun e' => e'.name = e.name) = some e := by
  have hget (name : String) : ((ownEntries labName clients).foldl keepFirst ∅).get? name =
      (ownEntries labName clients).find? fun e => e.name = name := get?_foldl_keepFirst _ name
  rw [collectHostsEntries_eq, Dict.mem_values_iff]
  simp only [hget]
  constructor
  · rintro ⟨name, hfind⟩
    obtain ⟨hname, _⟩ := List.find?_eq_some_iff_append.1 hfind
    obtain rfl : e.name = name := of_decide_eq_true hname
    exact hfind
  · exact fun hfind => ⟨e.name, hfind⟩

theorem nodup_collectHostsEntries (labName : String) (clients : Clients) :
    ((collectHostsEntries labName clients).map HostEntry.name).Nodup := by
  rw [collectHostsEntries_eq]
  have hfiled : Filed ((ownEntries labName clients).foldl keepFirst ∅) :=
    filed_foldl (fun _ _ h => by cases h) _
  generalize (ownEntries labName clients).foldl keepFirst ∅ = seen at hfiled
  have hkeys : seen.values.map HostEntry.name = seen.keys := by
    rw [Dict.values, Dict.keys, List.map_map]
    exact List.map_congr_left fun item hitem => hfiled _ _ (Dict.get?_eq_some_iff.2 hitem)
  exact hkeys ▸ seen.nodup_keys

end Merge

/-- Of every name and family there is the first entry in the blocks of the lab (`InBlock`: also in one
    that is not closed), and nothing else. No line is a marker of two labs, so that the blocks of the
    lab are its own. -/
structure KeepsBoth (labName : String) (clients : Clients) (entries : List HostEntry) : Prop where
  once : (entries.map fun e => (e.name, e.family)).Nodup
  first : ∀ e, e ∈ entries ↔ (ownEntries labName clients).find?
    (fun e' => (e'.name, e'.family) = (e.name, e.family)) = some e
  own : ∀ labName' mark mark' line, isMark mark labName line → isMark mark' labName' line →
    labName' = labName

/-- No name has entries of both families in the blocks of the lab. -/
def OneFamily (labName : String) (clients : Clients) : Prop :=
  ∀ e ∈ ownEntries labName clients, ∀ e' ∈ ownEntries labName clients,
    e.name = e'.name → e.family = e'.family

theorem find?_family_iff {labName : String} {clients : Clients} (h : OneFamily labName clients)
    (e : HostEntry) :
    (ownEntries labName clients).find? (fun e' => e'.name = e.name) = some e ↔
      (ownEntries labName clients).find?
        (fun e' => (e'.name, e'.family) = (e.name, e.family)) = some e := by
  by_cases he : e ∈ ownEntries labName clients
  · have hcongr : (ownEntries labName clients).find? (fun e' => e'.name = e.name) =
        (ownEntries labName clients).find?
          (fun e' => (e'.name, e'.family) = (e.name, e.family)) := by
      refine List.find?_congr fun e' he' => decide_eq_decide.2 ?_
      rw [Prod.mk.injEq]
      exact ⟨fun hname => ⟨hname, h e' he' e he hname⟩, And.left⟩
    rw [hcongr]
  · exact iff_of_false (fun hfind => he (List.mem_of_find?_eq_some hfind))
      fun hfind => he (List.mem_of_find?_eq_some hfind)

/-- There is an entry for the name and the family of every one in the blocks. -/
theorem KeepsBoth.exists_mem {labName : String} {clients : Clients} {entries : List HostEntry}
    (h : KeepsBoth labName clients entries) {e : HostEntry} (he : e ∈ ownEntries labName clients) :
    ∃ f ∈ entries, f.name = e.name ∧ f.family = e.family := by
  have hsome : ((ownEntries labName clients).find?
      fun e' => (e'.name, e'.family) = (e.name, e.family)).isSome :=
    List.find?_isSome.2 ⟨e, he, decide_eq_true rfl⟩
  obtain ⟨f, hf⟩ := Option.isSome_iff_exists.1 hsome
  have hkey : (f.name, f.family) = (e.name, e.family) :=
    of_decide_eq_true (List.find?_eq_some_iff_append.1 hf).1
  refine ⟨f, (h.first f).2 ?_, congrArg Prod.fst hkey, congrArg Prod.snd hkey⟩
  rw [hkey]
  exact hf

/-- What containerlab writes for a node with addresses of both families. -/
def bothFamilies : Clients :=
  .ofList [("master", some "###### CLAB-lab-START ######
10.0.0.11 clab-lab-R1 aaa
2001:db8::11 clab-lab-R1 aaa
###### CLAB-lab-END ######")]

end Dnlab.Hostsfile
