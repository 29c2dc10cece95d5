import Dnlab.Lib.Dict
import Dnlab.Lib.Glob
import Mathlib.Data.List.Sort
import Mathlib.Data.String.Basic

/-!
# The sync of images

A pass of the image-sync daemon, after `services/image_sync.py`: the images of
the master are filtered by the patterns of `hosts.yml`, and on every worker those
that are missing or stale are pushed and the others removed. The patterns are
not applied to the images of the worker, so one that the master has but that the
patterns leave out looks extra there, and is removed; without such an image a
pass is safe, and it always converges (`reconciles_iff`).

What a probe lists is the inventory itself; how the commands on a worker end is
given by `Commands`. The pass does not change the images of the master.
-/

namespace Dnlab.ImageSync

open Glob (fnmatchcase)

/-- The images of a host: `name:tag` to the image ID. -/
abbrev Inventory := Dict String String

/-- The patterns of the `image_sync` block. -/
structure ImageSyncConfig where
  incl : List String
  excl : List String

/-! ## Filter and difference -/

/-- `_matches`: a pattern without a tag or a wildcard matches any tag, with or without a prefix. -/
def matchesAny (name : String) (patterns : List String) : Bool :=
  patterns.any fun p => fnmatchcase name p ||
    !Text.contains p ":" && !Text.contains p "*" && !Text.contains p "?" &&
      (fnmatchcase name (p ++ ":*") || fnmatchcase name ("*/" ++ p ++ ":*"))

/-- An image passes the filter. -/
def selected (config : ImageSyncConfig) (name : String) : Bool :=
  matchesAny name config.incl && !matchesAny name config.excl

def filterImages (images : Inventory) (config : ImageSyncConfig) : Inventory :=
  images.filter fun name _ => selected config name

def sorted (l : List String) : List String := l.insertionSort fun a b => a.toList ≤ b.toList

/-- What to push and what to remove. -/
def computeDiff (master remote : Inventory) : List String × List String :=
  (sorted ((master.items.filter fun e => remote.get? e.1 ≠ some e.2).map Prod.fst),
    sorted (remote.keys.filter fun name => !master.contains name))

/-! ## A pass -/

/-- How the commands on a worker end: the error of its listing, if it has one, and whether a push
    and a removal of an image succeed. -/
structure Commands where
  listError : Option String
  push : String → Bool
  rmi : String → Bool

structure Worker where
  host : String
  images : Inventory

/-- `WorkerSyncState`, without its time. -/
structure WorkerSyncState where
  name : String
  host : String
  reachable : Bool
  images : Inventory
  missing : List String
  extra : List String
  lastError : String

/-- `docker save | ssh docker load`: the worker gets the image that the master has by this name. -/
def syncImageToHost (commands : Commands) (master : Inventory) (image : String)
    (images : Inventory) : Bool × Inventory :=
  match master.get? image with
  | some imageId =>
    if commands.push image then (true, images.set image imageId) else (false, images)
  | none => (false, images)

/-- The pushes to a worker, with the errors and the images of the worker after them. -/
def pushAll (commands : Commands) (master : Inventory) :
    (toPush : List String) → Inventory → List String × Inventory
  | [], images => ([], images)
  | image :: toPush, images =>
    let (ok, images) := syncImageToHost commands master image images
    let (errors, images) := pushAll commands master toPush images
    (if ok then errors else ("push " ++ image) :: errors, images)

/-- `docker rmi`: an image in use stays. -/
def removeRemoteImage (commands : Commands) (image : String) (images : Inventory) : Inventory :=
  if commands.rmi image then images.erase image else images

def removeAll (commands : Commands) (toRemove : List String) (images : Inventory) : Inventory :=
  toRemove.foldl (fun images image => removeRemoteImage commands image images) images

/-- One worker, with what it comes to. `master` is what the daemon can save, `masterImages` what it
    compares with. -/
def reconcileWorker (commands : Commands) (master : Inventory) (name : String) (client : Worker)
    (masterImages : Inventory) (removeExtra : Bool) : WorkerSyncState × Worker :=
  match commands.listError with
  | some exc => (⟨name, client.host, false, ∅, [], [], "list: " ++ exc⟩, client)
  | none =>
    let remote := client.images
    let (toPush, toRemove) := computeDiff masterImages remote
    let (errors, images) := pushAll commands master toPush remote
    let images := if removeExtra then removeAll commands toRemove images else images
    (⟨name, client.host, true, remote, toPush, if removeExtra then toRemove else [],
      Text.join "; " errors⟩, { client with images })

/-- The images of the master and the workers. -/
structure Fleet where
  master : Inventory
  workers : Dict String Worker

/-- `SyncState`, without its times. -/
structure SyncState where
  masterImages : Inventory
  workers : Dict String WorkerSyncState
  filterInclude : List String
  filterExclude : List String

/-- A pass: its state and the fleet after it. The workers do not share anything. -/
def reconcileOnce (commands : String → Commands) (cfg : ImageSyncConfig) (removeExtra : Bool)
    (fleet : Fleet) : SyncState × Fleet :=
  let filtered := filterImages fleet.master cfg
  let workers := fleet.workers.map fun name client =>
    reconcileWorker (commands name) fleet.master name client filtered removeExtra
  (⟨filtered, workers.map fun _ out => out.1, cfg.incl, cfg.excl⟩,
    { fleet with workers := workers.map fun _ out => out.2 })

/-- `dnlab-image-sync sync --image`: a pass with the image as the only pattern. -/
def syncImage (commands : String → Commands) (image : String) (removeExtra : Bool)
    (fleet : Fleet) : SyncState × Fleet :=
  reconcileOnce commands ⟨[image], []⟩ removeExtra fleet

/-! ## What a pass does -/

section Spec

variable (cfg : ImageSyncConfig) (removeExtra : Bool) (fleet : Fleet)

/-- A pass, however its commands end, takes no image off a worker that the master has. -/
def Safe : Prop :=
  ∀ commands, ∀ name client, fleet.workers.get? name = some client →
    ∀ image ∈ client.images.keys, image ∈ fleet.master.keys →
      ∃ client', (reconcileOnce commands cfg removeExtra fleet).2.workers.get? name = some client' ∧
        image ∈ client'.images.keys

/-- The pass reached the worker, and every push and removal that it made there succeeded. -/
def Succeeded (commands : String → Commands) (name : String) : Prop :=
  ∃ ws, (reconcileOnce commands cfg removeExtra fleet).1.workers.get? name = some ws ∧
    ws.reachable = true ∧ (∀ image ∈ ws.missing, (commands name).push image = true) ∧
    ∀ image ∈ ws.extra, (commands name).rmi image = true

/-- A pass after one that succeeded on a worker has nothing to do there. -/
def Convergent : Prop :=
  ∀ commands commands' name, Succeeded cfg removeExtra fleet commands name →
    ∃ ws, (reconcileOnce commands' cfg removeExtra
      (reconcileOnce commands cfg removeExtra fleet).2).1.workers.get? name = some ws ∧
      ws.missing = [] ∧ ws.extra = []

/-- A worker has an image that the master has too, but that does not pass the filter. -/
def Shadowed : Prop :=
  ∃ name client, fleet.workers.get? name = some client ∧
    ∃ image ∈ client.images.keys, image ∈ fleet.master.keys ∧ selected cfg image = false

end Spec

variable {cfg : ImageSyncConfig} {removeExtra : Bool} {fleet : Fleet} {commands : Commands}
  {master remote images : Inventory} {name image : String} {client : Worker}

theorem mem_sorted {l : List String} : image ∈ sorted l ↔ image ∈ l := List.mem_insertionSort _

theorem mem_toPush :
    image ∈ (computeDiff master remote).1 ↔
      ∃ imageId, master.get? image = some imageId ∧ remote.get? image ≠ some imageId := by
  rw [computeDiff, mem_sorted, List.mem_map]
  constructor
  · rintro ⟨⟨n, imageId⟩, he, rfl⟩
    obtain ⟨hmem, hne⟩ := List.mem_filter.1 he
    exact ⟨imageId, Dict.get?_eq_some_iff.2 hmem, of_decide_eq_true hne⟩
  · rintro ⟨imageId, hmaster, hne⟩
    have hmem := Dict.get?_eq_some_iff.1 hmaster
    exact ⟨(image, imageId), List.mem_filter.2 ⟨hmem, decide_eq_true hne⟩, rfl⟩

theorem mem_toRemove :
    image ∈ (computeDiff master remote).2 ↔ image ∈ remote.keys ∧ image ∉ master.keys := by
  rw [computeDiff, mem_sorted, List.mem_filter, Bool.not_eq_true', Bool.eq_false_iff, ne_eq,
    Dict.contains_iff]

/-- An inventory that agrees with the images of the master has nothing to push. -/
theorem toPush_eq_nil (h : ∀ image imageId, master.get? image = some imageId →
    remote.get? image = some imageId) : (computeDiff master remote).1 = [] := by
  rw [List.eq_nil_iff_forall_not_mem]
  intro image himage
  obtain ⟨imageId, hmaster, hne⟩ := mem_toPush.1 himage
  exact hne (h image imageId hmaster)

/-- The filter leaves the images that are selected. -/
theorem mem_keys_filterImages :
    image ∈ (filterImages images cfg).keys ↔ image ∈ images.keys ∧ selected cfg image = true := by
  rw [Dict.mem_keys_iff, Dict.mem_keys_iff, filterImages]
  constructor
  · rintro ⟨imageId, h⟩
    obtain ⟨h, hselected⟩ := Dict.get?_filter_eq_some_iff.1 h
    exact ⟨⟨imageId, h⟩, hselected⟩
  · rintro ⟨⟨imageId, h⟩, hselected⟩
    exact ⟨imageId, Dict.get?_filter_eq_some_iff.2 ⟨h, hselected⟩⟩

theorem get?_syncImageToHost (name : String) :
    (syncImageToHost commands master image images).2.get? name =
      if name = image ∧ commands.push image = true ∧ image ∈ master.keys then master.get? image
      else images.get? name := by
  rw [syncImageToHost]
  rcases hmaster : master.get? image with _ | imageId
  · rw [if_neg fun h => Dict.get?_eq_none_iff.1 hmaster h.2.2]
  · have hkey : image ∈ master.keys := Dict.mem_keys_iff.2 ⟨imageId, hmaster⟩
    dsimp only
    split
    · rename_i hpush
      rw [Dict.get?_set]
      simp [hpush, hkey]
    · rename_i hpush
      rw [if_neg fun h => hpush h.2.1]

/-- A push gives an image of the master to the worker, and changes no other one. -/
theorem get?_pushAll {toPush : List String} (name : String) :
    (pushAll commands master toPush images).2.get? name =
      if name ∈ toPush ∧ commands.push name = true ∧ name ∈ master.keys then master.get? name
      else images.get? name := by
  induction toPush generalizing images with
  | nil => rw [if_neg fun h => List.not_mem_nil h.1, pushAll]
  | cons image toPush ih =>
    rw [pushAll, ih, get?_syncImageToHost]
    by_cases hname : name = image
    · subst hname
      by_cases h : commands.push name = true ∧ name ∈ master.keys
      · rw [if_pos (c := name = name ∧ _) ⟨rfl, h⟩, ite_self, if_pos ⟨List.mem_cons_self, h⟩]
      · rw [if_neg fun hall => h hall.2, if_neg fun hall => h hall.2, if_neg fun hall => h hall.2]
    · simp only [List.mem_cons, hname, false_or, false_and, if_false]

/-- A removal takes an image off the worker, and changes no other one. -/
theorem get?_removeAll {toRemove : List String} (name : String) :
    (removeAll commands toRemove images).get? name =
      if name ∈ toRemove ∧ commands.rmi name = true then none else images.get? name := by
  induction toRemove generalizing images with
  | nil => rw [if_neg fun h => List.not_mem_nil h.1, removeAll, List.foldl_nil]
  | cons image toRemove ih =>
    have hstep : (removeRemoteImage commands image images).get? name =
        if name = image ∧ commands.rmi image = true then none else images.get? name := by
      rw [removeRemoteImage]
      by_cases hrmi : commands.rmi image = true
      · rw [if_pos hrmi, Dict.get?_erase]
        simp [hrmi]
      · rw [if_neg hrmi, if_neg fun h => hrmi h.2]
    rw [removeAll, List.foldl_cons]
    refine ih.trans ?_
    rw [hstep]
    by_cases hname : name = image
    · subst hname
      by_cases hrmi : commands.rmi name = true <;> simp [hrmi]
    · simp only [List.mem_cons, hname, false_or, false_and, if_false]

/-- The images of a worker after a pass. -/
theorem get?_reconcileWorker (hlist : commands.listError = none) (name' : String) :
    (reconcileWorker commands master name' client images removeExtra).2.images.get? image =
      if removeExtra = true ∧ image ∈ (computeDiff images client.images).2 ∧
          commands.rmi image = true then none
      else (pushAll commands master (computeDiff images client.images).1
        client.images).2.get? image := by
  rw [reconcileWorker, hlist]
  cases removeExtra with
  | true =>
    dsimp only
    rw [if_pos rfl, get?_removeAll]
    simp only [true_and]
  | false => simp

/-- What a pass says of a worker, and the worker after it. -/
theorem get?_workers_reconcileOnce {commands : String → Commands} {name : String}
    (hclient : fleet.workers.get? name = some client) :
    (reconcileOnce commands cfg removeExtra fleet).1.workers.get? name =
        some (reconcileWorker (commands name) fleet.master name client
          (filterImages fleet.master cfg) removeExtra).1 ∧
      (reconcileOnce commands cfg removeExtra fleet).2.workers.get? name =
        some (reconcileWorker (commands name) fleet.master name client
          (filterImages fleet.master cfg) removeExtra).2 := by
  constructor
  · rw [reconcileOnce, Dict.get?_map, Dict.get?_map, hclient]
    rfl
  · rw [reconcileOnce, Dict.get?_map, Dict.get?_map, hclient]
    rfl

/-- A pass leaves a worker the images that it has and that are not extra there. -/
theorem mem_keys_reconcileWorker {name' : String} (hlist : commands.listError = none)
    (himage : image ∈ client.images.keys)
    (hextra : ¬(removeExtra = true ∧ image ∈ (computeDiff images client.images).2 ∧
      commands.rmi image = true)) :
    image ∈ (reconcileWorker commands master name' client images removeExtra).2.images.keys := by
  rw [Dict.mem_keys_iff, get?_reconcileWorker hlist, if_neg hextra, get?_pushAll]
  split
  · rename_i h
    exact Dict.mem_keys_iff.1 h.2.2
  · exact Dict.mem_keys_iff.1 himage

/-- Without shadowed images, a pass is safe. -/
theorem safe_of_not_shadowed (h : removeExtra = true → ¬Shadowed cfg fleet) :
    Safe cfg removeExtra fleet := by
  intro commands name client hclient image himage hmaster
  refine ⟨_, (get?_workers_reconcileOnce hclient).2, ?_⟩
  rcases hlist : (commands name).listError with _ | exc
  · refine mem_keys_reconcileWorker hlist himage ?_
    rintro ⟨hremove, hextra, -⟩
    -- An image that is extra here and on the master does not pass the filter.
    have hfiltered := (mem_toRemove.1 hextra).2
    rw [mem_keys_filterImages, not_and, Bool.not_eq_true] at hfiltered
    exact h hremove ⟨name, client, hclient, image, himage, hmaster, hfiltered hmaster⟩
  · rw [reconcileWorker, hlist]
    exact himage

/-- When every command succeeds, an image of a worker that does not pass the filter is removed. -/
theorem removed_of_not_selected (hclient : fleet.workers.get? name = some client)
    (himage : image ∈ client.images.keys) (hfilter : selected cfg image = false) :
    ∃ client', (reconcileOnce (fun _ => ⟨none, fun _ => true, fun _ => true⟩) cfg true
        fleet).2.workers.get? name = some client' ∧ image ∉ client'.images.keys := by
  refine ⟨_, (get?_workers_reconcileOnce hclient).2, ?_⟩
  have hextra : image ∉ (filterImages fleet.master cfg).keys := by
    rw [mem_keys_filterImages, hfilter]
    exact fun h => Bool.noConfusion h.2
  rw [← Dict.get?_eq_none_iff, get?_reconcileWorker rfl,
    if_pos ⟨rfl, mem_toRemove.2 ⟨himage, hextra⟩, rfl⟩]

theorem not_safe_of_shadowed (h : Shadowed cfg fleet) : ¬Safe cfg true fleet := by
  intro hsafe
  obtain ⟨name, client, hclient, image, himage, hmaster, hfilter⟩ := h
  obtain ⟨after, hafter, hgone⟩ := removed_of_not_selected hclient himage hfilter
  obtain ⟨after', hafter', hstays⟩ := hsafe _ name client hclient image himage hmaster
  rw [hafter] at hafter'
  cases hafter'
  exact hgone hstays

/-- After a pass whose commands succeeded, the worker has the images of the master that pass the
    filter, and, where extra ones are removed, no other ones. -/
theorem aligned_reconcileWorker (name' : String) (hlist : commands.listError = none)
    (hpush : ∀ image ∈ (computeDiff (filterImages master cfg) client.images).1,
      commands.push image = true)
    (hrmi : removeExtra = true → ∀ image ∈ (computeDiff (filterImages master cfg) client.images).2,
      commands.rmi image = true) :
    let after := (reconcileWorker commands master name' client (filterImages master cfg)
      removeExtra).2.images
    (∀ image imageId, (filterImages master cfg).get? image = some imageId →
        after.get? image = some imageId) ∧
      (removeExtra = true → ∀ image ∈ after.keys, image ∈ (filterImages master cfg).keys) := by
  intro after
  constructor
  · intro image imageId himage
    have hkey := Dict.mem_keys_iff.2 ⟨imageId, himage⟩
    have hmaster := (Dict.get?_filter_eq_some_iff.1 himage).1
    rw [get?_reconcileWorker hlist, if_neg fun h => (mem_toRemove.1 h.2.1).2 hkey, get?_pushAll]
    by_cases hsame : client.images.get? image = some imageId
    · split
      · exact hmaster
      · exact hsame
    · have hmissing := mem_toPush.2 ⟨imageId, himage, hsame⟩
      rw [if_pos ⟨hmissing, hpush image hmissing, Dict.mem_keys_iff.2 ⟨imageId, hmaster⟩⟩]
      exact hmaster
  · intro hremove image himage
    by_contra hkey
    have hkept : image ∉ (computeDiff (filterImages master cfg) client.images).1 := fun h =>
      hkey (Dict.mem_keys_iff.2 ((mem_toPush.1 h).imp fun _ h => h.1))
    have hsame : (pushAll commands master (computeDiff (filterImages master cfg) client.images).1
        client.images).2.get? image = client.images.get? image := by
      rw [get?_pushAll, if_neg fun h => hkept h.1]
    rw [Dict.mem_keys_iff, get?_reconcileWorker hlist, hsame] at himage
    obtain ⟨imageId, himage⟩ := himage
    by_cases hextra : image ∈ (computeDiff (filterImages master cfg) client.images).2
    · rw [if_pos ⟨hremove, hextra, hrmi hremove image hextra⟩] at himage
      cases himage
    · rw [if_neg fun h => hextra h.2.1] at himage
      exact hextra (mem_toRemove.2 ⟨Dict.mem_keys_iff.2 ⟨imageId, himage⟩, hkey⟩)

/-- A pass over a worker that is aligned already does nothing there. -/
theorem reconcileWorker_of_aligned {name' : String}
    (hpush : ∀ image imageId, images.get? image = some imageId →
      client.images.get? image = some imageId)
    (hextra : removeExtra = true → ∀ image ∈ client.images.keys, image ∈ images.keys) :
    let ws := (reconcileWorker commands master name' client images removeExtra).1
    ws.missing = [] ∧ ws.extra = [] := by
  rw [reconcileWorker]
  rcases commands.listError with _ | exc
  · refine ⟨toPush_eq_nil hpush, ?_⟩
    cases removeExtra with
    | true =>
      refine List.eq_nil_iff_forall_not_mem.2 fun image himage => ?_
      obtain ⟨hkey, hnot⟩ := mem_toRemove.1 himage
      exact hnot (hextra rfl image hkey)
    | false => rfl
  · exact ⟨rfl, rfl⟩

theorem convergent : Convergent cfg removeExtra fleet := by
  rintro commands commands' name ⟨ws, hws, hreachable, hpush, hrmi⟩
  rcases hclient : fleet.workers.get? name with _ | client
  · rw [reconcileOnce, Dict.get?_map, Dict.get?_map, hclient] at hws
    cases hws
  · rw [(get?_workers_reconcileOnce hclient).1] at hws
    cases hws
    have hlist : (commands name).listError = none := by
      rcases hlist : (commands name).listError with _ | exc
      · rfl
      · rw [reconcileWorker, hlist] at hreachable
        cases hreachable
    rw [reconcileWorker, hlist] at hpush hrmi
    have hremoved : removeExtra = true →
        ∀ image ∈ (computeDiff (filterImages fleet.master cfg) client.images).2,
          (commands name).rmi image = true := by
      rintro rfl
      exact hrmi
    obtain ⟨hhas, honly⟩ := aligned_reconcileWorker name hlist hpush hremoved
    exact ⟨_, (get?_workers_reconcileOnce (get?_workers_reconcileOnce hclient).2).1,
      reconcileWorker_of_aligned hhas honly⟩

/-- A pass is safe and convergent if and only if no image that a worker and the master have fails
    the filter, or extra images are not removed. -/
theorem reconciles_iff :
    Safe cfg removeExtra fleet ∧ Convergent cfg removeExtra fleet ↔
      (removeExtra = true → ¬Shadowed cfg fleet) :=
  ⟨fun h hremove hshadowed => not_safe_of_shadowed hshadowed (hremove ▸ h.1),
    fun h => ⟨safe_of_not_shadowed h, convergent⟩⟩

/-- `vrnetlab/*` is kept in sync; the worker has `ubuntu:22.04` as the master has it. -/
def halfFiltered : Fleet where
  master := .ofList [("vrnetlab/xr:1.0", "sha:XR"), ("ubuntu:22.04", "sha:UB")]
  workers := .ofList [("w1", ⟨"10.0.0.2",
    .ofList [("vrnetlab/xr:1.0", "sha:XR"), ("ubuntu:22.04", "sha:UB")]⟩)]

/-- Its pass removes `ubuntu:22.04` from the worker. -/
theorem not_safe_halfFiltered :
    ¬(Safe ⟨["vrnetlab/*"], ["<none>:<none>"]⟩ true halfFiltered ∧
      Convergent ⟨["vrnetlab/*"], ["<none>:<none>"]⟩ true halfFiltered) := fun h =>
  not_safe_of_shadowed
    ⟨"w1", _, rfl, "ubuntu:22.04", by decide, by decide, by decide +kernel⟩ h.1

end Dnlab.ImageSync
