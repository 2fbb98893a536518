import PageCamel.Lib.Runs
import Mathlib.Data.List.Basic
import Mathlib.Data.List.Count
import Mathlib.Data.List.Pairwise
import Mathlib.Logic.Function.Basic

/-!
The registered callbacks of `PCWebsocket`. Arrays of callbacks are objects: the list holds
references to those that the callers have passed, and removing callbacks changes them.
-/

namespace PageCamel.Web.MessageList
open PageCamel.Lib

abbrev Text := List Char

/-- Arrays are named by numbers. -/
structure MessageListItem where
  messagename : Text
  modulename : Text
  callbacks : Nat
  deriving DecidableEq, Repr

variable {κ : Type}

structure Store (κ : Type) where
  arrays : Nat → List κ
  messageList : List MessageListItem

/-- The callbacks for a message of this name, as `_handleMsg` calls them. -/
def Store.called (s : Store κ) (msgname : Text) : List κ :=
  (s.messageList.filter (·.messagename = msgname)).flatMap fun item => s.arrays item.callbacks

theorem called_cons (arrays : Nat → List κ) (name : Text) (item : MessageListItem) (rest : List MessageListItem) :
    Store.called ⟨arrays, item :: rest⟩ name =
      (if item.messagename = name then arrays item.callbacks else []) ++
        Store.called ⟨arrays, rest⟩ name := by
  rw [Store.called, Store.called, List.filter_cons]
  by_cases hName : item.messagename = name
  · rw [if_pos hName, if_pos (decide_eq_true hName), List.flatMap_cons]
  · rw [if_neg hName, if_neg (by simpa using hName)]
    rfl

theorem mem_called {s : Store κ} {name : Text} {cb : κ} :
    cb ∈ s.called name ↔
      ∃ item ∈ s.messageList, item.messagename = name ∧ cb ∈ s.arrays item.callbacks := by
  rw [Store.called, List.mem_flatMap]
  constructor
  · rintro ⟨item, hItem, hCb⟩
    obtain ⟨hMem, hName⟩ := List.mem_filter.mp hItem
    exact ⟨item, hMem, of_decide_eq_true hName, hCb⟩
  · rintro ⟨item, hMem, hName, hCb⟩
    exact ⟨item, List.mem_filter.mpr ⟨hMem, decide_eq_true hName⟩, hCb⟩

theorem called_filter (s : Store κ) (stays : κ → Bool) (name : Text) :
    (s.called name).filter stays =
      (s.messageList.filter (·.messagename = name)).flatMap fun item =>
        (s.arrays item.callbacks).filter stays := by
  rw [Store.called, List.filter_flatMap]

def MessageListItem.replace (msgname modulename : Text) (callback : Nat) (item : MessageListItem) :
    MessageListItem :=
  if item.messagename = msgname ∧ item.modulename = modulename then
    { item with callbacks := callback }
  else item

/-- `register`, for a name in upper case. The call of a new callback for `ISCONNECTED` is its last
statement and changes nothing of the list. -/
def Store.register (s : Store κ) (msgname modulename : Text) (callback : Nat) : Store κ :=
  if ∃ item ∈ s.messageList, item.messagename = msgname ∧ item.modulename = modulename then
    { s with messageList := s.messageList.map (·.replace msgname modulename callback) }
  else { s with messageList := s.messageList ++ [⟨msgname, modulename, callback⟩] }

theorem register_called {s : Store κ} {msgname : Text} {callback : Nat} {name modulename : Text} {cb : κ}
    (hCb : cb ∈ (s.register msgname modulename callback).called name) :
    cb ∈ s.called name ∨ msgname = name ∧ cb ∈ s.arrays callback := by
  obtain ⟨item, hItem, hName, hCb⟩ := mem_called.mp hCb
  rw [Store.register] at hItem hCb
  split at hItem
  · next hSome =>
    rw [if_pos hSome] at hCb
    obtain ⟨old, hOld, rfl⟩ := List.mem_map.mp hItem
    by_cases hSame : old.messagename = msgname ∧ old.modulename = modulename
    · rw [MessageListItem.replace, if_pos hSame] at hName hCb
      exact .inr ⟨hSame.1.symm.trans hName, hCb⟩
    · rw [MessageListItem.replace, if_neg hSame] at hName hCb
      exact .inl (mem_called.mpr ⟨old, hOld, hName, hCb⟩)
  · next hNone =>
    rw [if_neg hNone] at hCb
    rcases List.mem_append.mp hItem with hOld | hNew
    · exact .inl (mem_called.mpr ⟨item, hOld, hName, hCb⟩)
    · obtain rfl := List.mem_singleton.mp hNew
      exact .inr ⟨hName, hCb⟩

variable [DecidableEq κ]

/-- The loop over the callbacks that are to be removed from an entry's own ones. -/
def removeCallbacks (callback own : Nat) : Nat → Nat → (Nat → List κ) → Nat → List κ
  | 0, _, arrays => arrays
  | fuel + 1, c, arrays =>
      match (arrays callback)[c]? with
      | none => arrays
      | some cb =>
          removeCallbacks callback own fuel (c + 1)
            (Function.update arrays own ((arrays own).erase cb))

/-- The loop over the entries, which removes those that have no callbacks left. -/
def deregisterFrom (msgname : Text) (callback : Nat) : Nat → Nat → Store κ → Store κ
  | 0, _, s => s
  | fuel + 1, i, s =>
      match s.messageList[i]? with
      | none => s
      | some item =>
          if item.messagename = msgname then
            let arrays :=
              removeCallbacks callback item.callbacks (s.arrays callback).length 0 s.arrays
            deregisterFrom msgname callback fuel (i + 1)
              { arrays
                messageList :=
                  if arrays item.callbacks = [] then s.messageList.eraseIdx i else s.messageList }
          else deregisterFrom msgname callback fuel (i + 1) s

/-- `deregister`, for a name in upper case. -/
def Store.deregister (s : Store κ) (msgname : Text) (callback : Nat) : Store κ :=
  deregisterFrom msgname callback s.messageList.length 0 s

inductive Call where
  | register (msgname modulename : Text) (callback : Nat)
  | deregister (msgname : Text) (callback : Nat)
  deriving DecidableEq, Repr

section Calls

variable (toUpperCase : Text → Text)

def Store.step (s : Store κ) : Call → Store κ
  | .register msgname modulename callback => s.register (toUpperCase msgname) modulename callback
  | .deregister msgname callback => s.deregister (toUpperCase msgname) callback

/-! ### What `deregister` should do -/

/-- The call does not register the callback for the name. -/
def Call.KeepsOut (msgname : Text) (cb : κ) (s : Store κ) : Call → Prop
  | .register msgname' _ callback => toUpperCase msgname' = msgname → cb ∉ s.arrays callback
  | .deregister _ _ => True

structure Deregistered (s : Store κ) (msgname : Text) (callback : Nat) (s' : Store κ) : Prop where
  /-- Until a callback is registered again. -/
  gone : ∀ cb ∈ s.arrays callback, ∀ calls,
    Meets (Store.step toUpperCase) (Call.KeepsOut toUpperCase msgname cb) s' calls →
      cb ∉ (runEvents (Store.step toUpperCase) s' calls).called msgname
  names : ∀ other, other ≠ msgname → s'.called other = s.called other
  callbacks : (s'.called msgname).filter (· ∉ s.arrays callback) =
    (s.called msgname).filter (· ∉ s.arrays callback)

def Call.Holds (s : Store κ) : Call → Prop
  | .register _ _ _ => True
  | .deregister msgname callback =>
      Deregistered toUpperCase s (toUpperCase msgname) callback
        (s.deregister (toUpperCase msgname) callback)

end Calls

/-! ### When it does -/

/-- The entry has one of the callbacks. -/
def Store.Has (s : Store κ) (callback : Nat) (item : MessageListItem) : Prop :=
  ∃ cb ∈ s.arrays item.callbacks, cb ∈ s.arrays callback

instance (s : Store κ) (callback : Nat) (item : MessageListItem) : Decidable (s.Has callback item) :=
  inferInstanceAs (Decidable (∃ cb ∈ s.arrays item.callbacks, cb ∈ s.arrays callback))

/-- The loop does not pass over an entry of the name that has one of the callbacks: it stands
behind one that is removed. -/
def Store.NonePassed (s : Store κ) (msgname : Text) (callback : Nat) : List MessageListItem → Prop
  | [] => True
  | [_] => True
  | item :: next :: rest =>
      if item.messagename = msgname ∧ s.arrays item.callbacks ⊆ s.arrays callback then
        (next.messagename = msgname → s.Has callback next → next.callbacks = item.callbacks) ∧
          s.NonePassed msgname callback rest
      else s.NonePassed msgname callback (next :: rest)

instance decidableNonePassed (s : Store κ) (msgname : Text) (callback : Nat) :
    (rest : List MessageListItem) → Decidable (s.NonePassed msgname callback rest)
  | [] => isTrue trivial
  | [_] => isTrue trivial
  | item :: next :: rest =>
      letI := decidableNonePassed s msgname callback rest
      letI := decidableNonePassed s msgname callback (next :: rest)
      inferInstanceAs (Decidable
        (if item.messagename = msgname ∧ s.arrays item.callbacks ⊆ s.arrays callback then
          (next.messagename = msgname → s.Has callback next → next.callbacks = item.callbacks) ∧
            s.NonePassed msgname callback rest
        else s.NonePassed msgname callback (next :: rest)))

/-- The conditions are about the entries of the name. -/
structure Store.Removable (s : Store κ) (msgname : Text) (callback : Nat) : Prop where
  /-- The array passed is not one that gets shorter, unless it has no second callback ... -/
  own : ∀ item ∈ s.messageList, item.messagename = msgname → item.callbacks = callback →
    (s.arrays callback).length ≤ 1
  /-- ... and the callback does not have to be removed from an entry behind. -/
  behind : s.messageList.Pairwise fun item other =>
    item.messagename = msgname → item.callbacks = callback → other.messagename = msgname →
      s.Has callback other → other.callbacks = callback
  /-- An array that gets shorter is not that of another name. -/
  shared : ∀ item ∈ s.messageList, item.messagename = msgname → s.Has callback item →
    ∀ other ∈ s.messageList, other.callbacks = item.callbacks → other.messagename = msgname
  /-- One callback is not there more often than it is to be removed. -/
  often : ∀ item ∈ s.messageList, item.messagename = msgname → ∀ cb ∈ s.arrays callback,
    (s.arrays item.callbacks).count cb ≤ (s.arrays callback).count cb
  passed : s.NonePassed msgname callback s.messageList

def Call.Fits (toUpperCase : Text → Text) (s : Store κ) : Call → Prop
  | .register _ _ _ => True
  | .deregister msgname callback => s.Removable (toUpperCase msgname) callback

/-! ### The loops -/

variable {s : Store κ} {msgname : Text} {callback own : Nat} {arrays : Nat → List κ}

theorem removeCallbacks_other (hOther : own ≠ callback) (fuel c : Nat)
    (hFuel : (arrays callback).length ≤ c + fuel) :
    removeCallbacks callback own fuel c arrays =
      Function.update arrays own ((arrays own).diff ((arrays callback).drop c)) := by
  induction fuel generalizing c arrays with
  | zero =>
    rw [Nat.add_zero] at hFuel
    rw [removeCallbacks, List.drop_eq_nil_of_le hFuel, List.diff_nil, Function.update_eq_self]
  | succ fuel ih =>
    rw [removeCallbacks]
    cases hGet : (arrays callback)[c]? with
    | none =>
      rw [List.drop_eq_nil_of_le (List.getElem?_eq_none_iff.mp hGet), List.diff_nil,
        Function.update_eq_self]
    | some cb =>
      have hSame : Function.update arrays own ((arrays own).erase cb) callback = arrays callback :=
        Function.update_of_ne hOther.symm _ _
      obtain ⟨hLength, hCb⟩ := List.getElem?_eq_some_iff.mp hGet
      dsimp only
      rw [ih (c + 1) (by rw [hSame]; omega), hSame, Function.update_idem, Function.update_self,
        List.drop_eq_getElem_cons hLength, hCb, List.diff_cons]

/-- With a single callback it does not matter that the array gets shorter. -/
theorem removeCallbacks_own (hShort : (arrays callback).length ≤ 1) :
    removeCallbacks callback callback (arrays callback).length 0 arrays =
      Function.update arrays callback [] := by
  cases hArray : arrays callback with
  | nil =>
    rw [List.length_nil, removeCallbacks, ← hArray, Function.update_eq_self]
  | cons cb rest =>
    rw [hArray, List.length_cons] at hShort
    obtain rfl := List.length_eq_zero_iff.mp (Nat.le_zero.mp (Nat.le_of_succ_le_succ hShort))
    rw [List.length_cons, List.length_nil, removeCallbacks, hArray, List.getElem?_cons_zero]
    dsimp only
    rw [removeCallbacks, List.erase_cons_head]

theorem diff_eq_filter {list other : List κ} (hOften : ∀ cb ∈ other, list.count cb ≤ other.count cb) :
    list.diff other = list.filter (· ∉ other) := by
  have hKept : ∀ other' : List κ, other' ⊆ other →
      (list.diff other').filter (· ∉ other) = list.filter (· ∉ other) := by
    intro other' hSub
    induction other' with
    | nil => rfl
    | cons cb other' ih =>
      have hCb : cb ∉ (list.diff other').filter (· ∉ other) := fun hMem =>
        of_decide_eq_true (List.mem_filter.mp hMem).2 (hSub List.mem_cons_self)
      rw [List.diff_cons_right, ← List.erase_filter, List.erase_of_not_mem hCb,
        ih (List.subset_of_cons_subset hSub)]
  rw [← hKept other (List.Subset.refl other)]
  refine (List.filter_eq_self.mpr fun cb hCb => ?_).symm
  rw [decide_eq_true_iff]
  intro hOther
  have hCount := List.count_pos_iff.mpr hCb
  rw [List.count_diff] at hCount
  have := hOften cb hOther
  omega

/-- What is left of an array. -/
def Store.cleaned (s : Store κ) (callback own : Nat) : List κ :=
  (s.arrays own).filter (· ∉ s.arrays callback)

theorem cleaned_of_not_has {item : MessageListItem} (hNone : ¬s.Has callback item) :
    s.cleaned callback item.callbacks = s.arrays item.callbacks :=
  List.filter_eq_self.mpr fun cb hCb => decide_eq_true fun hOther => hNone ⟨cb, hCb, hOther⟩

theorem cleaned_eq_nil : s.cleaned callback own = [] ↔ s.arrays own ⊆ s.arrays callback := by
  rw [Store.cleaned, List.filter_eq_nil_iff]
  constructor
  · intro hNone cb hCb
    simpa using hNone cb hCb
  · intro hSub cb hCb
    simpa using hSub hCb

theorem cleaned_diff : (s.cleaned callback own).diff (s.arrays callback) = s.cleaned callback own := by
  have hNone : ∀ cb ∈ s.arrays callback, (s.cleaned callback own).count cb = 0 := by
    intro cb hCb
    refine List.count_eq_zero.mpr fun hMem => ?_
    exact of_decide_eq_true (List.mem_filter.mp hMem).2 hCb
  rw [diff_eq_filter fun cb hCb => hNone cb hCb ▸ Nat.zero_le _]
  refine List.filter_eq_self.mpr fun cb hCb => ?_
  exact (List.mem_filter.mp hCb).2

/-- What the arrays are while the loop has come to an entry. -/
structure Walked (s : Store κ) (msgname : Text) (callback : Nat) (arrays : Nat → List κ)
    (rest : List MessageListItem) : Prop where
  array : ∀ own, arrays own = s.arrays own ∨ arrays own = s.cleaned callback own ∧
    ∃ item ∈ s.messageList, item.messagename = msgname ∧ item.callbacks = own
  passed : arrays callback = s.arrays callback ∨ arrays callback = [] ∧ ∀ other ∈ rest,
    other.messagename = msgname → s.Has callback other → other.callbacks = callback

variable {item : MessageListItem} {rest : List MessageListItem}

theorem Walked.array_of_not_has (hWalked : Walked s msgname callback arrays rest)
    (hNone : ¬s.Has callback item) : arrays item.callbacks = s.cleaned callback item.callbacks := by
  rcases hWalked.array item.callbacks with hSame | ⟨hCleaned, -⟩
  · rw [hSame, cleaned_of_not_has hNone]
  · exact hCleaned

/-- The loop over the callbacks cleans the array. -/
theorem Walked.removeCallbacks (hRemovable : s.Removable msgname callback)
    (hItem : item ∈ s.messageList) (hName : item.messagename = msgname)
    (hWalked : Walked s msgname callback arrays (item :: rest)) :
    removeCallbacks callback item.callbacks (arrays callback).length 0 arrays =
      Function.update arrays item.callbacks (s.cleaned callback item.callbacks) := by
  by_cases hOwn : item.callbacks = callback
  · have hShort : (arrays callback).length ≤ 1 := by
      rcases hWalked.passed with hSame | ⟨hNone, -⟩
      · rw [hSame]
        exact hRemovable.own item hItem hName hOwn
      · rw [hNone]
        exact Nat.zero_le 1
    have hAll : s.cleaned callback callback = [] := cleaned_eq_nil.mpr (List.Subset.refl _)
    rw [hOwn, removeCallbacks_own hShort, hAll]
  · rw [removeCallbacks_other hOwn _ _ (Nat.le_add_left _ _), List.drop_zero]
    congr 1
    rcases hWalked.passed with hSame | ⟨hNone, hBehind⟩
    · rw [hSame]
      rcases hWalked.array item.callbacks with hSame | ⟨hCleaned, -⟩
      · rw [hSame, diff_eq_filter (hRemovable.often item hItem hName)]
        rfl
      · rw [hCleaned, cleaned_diff]
    · have hHas : ¬s.Has callback item := fun hHas =>
        hOwn (hBehind item List.mem_cons_self hName hHas)
      rw [hNone, List.diff_nil, hWalked.array_of_not_has hHas]

theorem Walked.handled (hItem : item ∈ s.messageList) (hName : item.messagename = msgname)
    (hBehind : ∀ other ∈ rest, item.messagename = msgname → item.callbacks = callback →
      other.messagename = msgname → s.Has callback other → other.callbacks = callback)
    (hWalked : Walked s msgname callback arrays (item :: rest)) :
    Walked s msgname callback
      (Function.update arrays item.callbacks (s.cleaned callback item.callbacks)) rest := by
  constructor
  · intro own
    by_cases hOwn : own = item.callbacks
    · rw [hOwn, Function.update_self]
      exact .inr ⟨rfl, item, hItem, hName, rfl⟩
    · rw [Function.update_of_ne hOwn]
      exact hWalked.array own
  · by_cases hOwn : callback = item.callbacks
    · right
      rw [← hOwn, Function.update_self]
      exact ⟨cleaned_eq_nil.mpr (List.Subset.refl _),
        fun other hOther => hBehind other hOther hName hOwn.symm⟩
    · rw [Function.update_of_ne hOwn]
      exact hWalked.passed.imp_right fun hPassed =>
        ⟨hPassed.1, fun other hOther => hPassed.2 other (List.mem_cons_of_mem _ hOther)⟩

theorem Walked.tail (hWalked : Walked s msgname callback arrays (item :: rest)) :
    Walked s msgname callback arrays rest :=
  ⟨hWalked.array, hWalked.passed.imp_right fun hPassed =>
    ⟨hPassed.1, fun other hOther => hPassed.2 other (List.mem_cons_of_mem _ hOther)⟩⟩

/-- What the loop has done from an entry on. -/
structure Finished (s : Store κ) (msgname : Text) (callback : Nat) (arrays : Nat → List κ)
    (rest : List MessageListItem) (arrays' : Nat → List κ) (kept : List MessageListItem) : Prop where
  array : ∀ own, arrays' own = s.arrays own ∨ arrays' own = s.cleaned callback own ∧
    ∃ item ∈ s.messageList, item.messagename = msgname ∧ item.callbacks = own
  still : ∀ own, arrays own = s.cleaned callback own → arrays' own = s.cleaned callback own
  cleaned : ∀ item ∈ rest, item.messagename = msgname →
    arrays' item.callbacks = s.cleaned callback item.callbacks
  called : ∀ name, Store.called ⟨arrays', kept⟩ name = Store.called ⟨arrays', rest⟩ name

theorem Walked.finished (hWalked : Walked s msgname callback arrays []) :
    Finished s msgname callback arrays [] arrays [] :=
  ⟨hWalked.array, fun _ hStill => hStill, nofun, fun _ => rfl⟩

variable {arrays' : Nat → List κ} {kept : List MessageListItem}

/-- The entry stays in the list. -/
theorem Finished.keep (hFinished : Finished s msgname callback arrays rest arrays' kept)
    (hItem : item.messagename = msgname →
      arrays' item.callbacks = s.cleaned callback item.callbacks) :
    Finished s msgname callback arrays (item :: rest) arrays' (item :: kept) := by
  refine ⟨hFinished.array, hFinished.still, ?_, fun name => ?_⟩
  · exact List.forall_mem_cons.mpr ⟨hItem, hFinished.cleaned⟩
  · rw [called_cons, called_cons, hFinished.called]

/-- The entry has no callbacks left and is removed. -/
theorem Finished.remove (hFinished : Finished s msgname callback arrays rest arrays' kept)
    (hCleaned : arrays' item.callbacks = s.cleaned callback item.callbacks)
    (hNone : s.cleaned callback item.callbacks = []) :
    Finished s msgname callback arrays (item :: rest) arrays' kept := by
  refine ⟨hFinished.array, hFinished.still, ?_, fun name => ?_⟩
  · exact List.forall_mem_cons.mpr ⟨fun _ => hCleaned, hFinished.cleaned⟩
  · rw [called_cons, hFinished.called, hCleaned, hNone, ite_self, List.nil_append]

theorem Finished.of_update (hFinished : Finished s msgname callback
      (Function.update arrays own (s.cleaned callback own)) rest arrays' kept) :
    Finished s msgname callback arrays rest arrays' kept := by
  refine ⟨hFinished.array, fun own' hStill => hFinished.still own' ?_, hFinished.cleaned,
    hFinished.called⟩
  by_cases hOwn : own' = own
  · rw [hOwn, Function.update_self]
  · rw [Function.update_of_ne hOwn, hStill]

theorem Finished.updated (hFinished : Finished s msgname callback
      (Function.update arrays own (s.cleaned callback own)) rest arrays' kept) :
    arrays' own = s.cleaned callback own :=
  hFinished.still own (Function.update_self own _ _)

theorem Finished.array_of_not_has (hFinished : Finished s msgname callback arrays rest arrays' kept)
    (hNone : ¬s.Has callback item) : arrays' item.callbacks = s.cleaned callback item.callbacks := by
  rcases hFinished.array item.callbacks with hSame | ⟨hCleaned, -⟩
  · rw [hSame, cleaned_of_not_has hNone]
  · exact hCleaned

theorem deregisterFrom_end (fuel i : Nat) (done : List MessageListItem) (hEnd : done.length ≤ i) :
    deregisterFrom msgname callback fuel i ⟨arrays, done⟩ = ⟨arrays, done⟩ := by
  cases fuel with
  | zero => rfl
  | succ fuel => rw [deregisterFrom, List.getElem?_eq_none_iff.mpr hEnd]

/-- The loop comes to the entry behind `done`. -/
theorem deregisterFrom_item (fuel : Nat) (done : List MessageListItem) :
    deregisterFrom msgname callback (fuel + 1) done.length ⟨arrays, done ++ item :: rest⟩ =
      if item.messagename = msgname then
        let arrays' := removeCallbacks callback item.callbacks (arrays callback).length 0 arrays
        deregisterFrom msgname callback fuel (done.length + 1)
          ⟨arrays', if arrays' item.callbacks = [] then done ++ rest else done ++ item :: rest⟩
      else deregisterFrom msgname callback fuel (done.length + 1) ⟨arrays, done ++ item :: rest⟩ := by
  rw [deregisterFrom, List.getElem?_append_right (Nat.le_refl _), Nat.sub_self,
    List.getElem?_cons_zero]
  dsimp only
  have hErase : (done ++ item :: rest).eraseIdx done.length = done ++ rest := by
    rw [List.eraseIdx_append_of_length_le (Nat.le_refl _), Nat.sub_self, List.eraseIdx_cons_zero]
  rw [hErase]

theorem Store.NonePassed.tail (hPassed : s.NonePassed msgname callback (item :: rest))
    (hStays : item.messagename = msgname → s.cleaned callback item.callbacks ≠ []) :
    s.NonePassed msgname callback rest := by
  cases rest with
  | nil => trivial
  | cons next rest =>
    rw [Store.NonePassed, if_neg fun hBoth => hStays hBoth.1 (cleaned_eq_nil.mpr hBoth.2)] at hPassed
    exact hPassed

theorem Store.NonePassed.next {next : MessageListItem}
    (hPassed : s.NonePassed msgname callback (item :: next :: rest))
    (hName : item.messagename = msgname) (hNone : s.cleaned callback item.callbacks = []) :
    (next.messagename = msgname → s.Has callback next → next.callbacks = item.callbacks) ∧
      s.NonePassed msgname callback rest := by
  rw [Store.NonePassed, if_pos ⟨hName, cleaned_eq_nil.mp hNone⟩] at hPassed
  exact hPassed

/-- By induction on the rounds that are left: a round handles one entry, or removes it and
passes over the next one. -/
theorem deregisterFrom_spec (hRemovable : s.Removable msgname callback) (fuel : Nat)
    (done rest : List MessageListItem) (arrays : Nat → List κ) (hFuel : rest.length ≤ fuel)
    (hSub : rest ⊆ s.messageList) (hPassed : s.NonePassed msgname callback rest)
    (hBehind : rest.Pairwise fun item other =>
      item.messagename = msgname → item.callbacks = callback → other.messagename = msgname →
        s.Has callback other → other.callbacks = callback)
    (hWalked : Walked s msgname callback arrays rest) :
    ∃ arrays' kept, deregisterFrom msgname callback fuel done.length ⟨arrays, done ++ rest⟩ =
        ⟨arrays', done ++ kept⟩ ∧ Finished s msgname callback arrays rest arrays' kept := by
  induction fuel generalizing done rest arrays with
  | zero =>
    obtain rfl := List.length_eq_zero_iff.mp (Nat.le_zero.mp hFuel)
    exact ⟨arrays, [], rfl, hWalked.finished⟩
  | succ fuel ih =>
    cases rest with
    | nil =>
      refine ⟨arrays, [], ?_, hWalked.finished⟩
      exact deregisterFrom_end _ done.length _ (Nat.le_of_eq (by rw [List.append_nil]))
    | cons item rest =>
      rw [List.length_cons, Nat.add_le_add_iff_right] at hFuel
      have hItem := hSub List.mem_cons_self
      have hRest := List.subset_of_cons_subset hSub
      obtain ⟨hFirst, hBehind⟩ := List.pairwise_cons.mp hBehind
      have hIndex : done.length + 1 = (done ++ [item]).length := by
        rw [List.length_append, List.length_singleton]
      have hList : done ++ item :: rest = (done ++ [item]) ++ rest := by rw [List.append_assoc]; rfl
      rw [deregisterFrom_item]
      by_cases hName : item.messagename = msgname
      · rw [if_pos hName]
        dsimp only
        rw [hWalked.removeCallbacks hRemovable hItem hName, Function.update_self]
        have hHandled := hWalked.handled hItem hName hFirst
        by_cases hNone : s.cleaned callback item.callbacks = []
        · rw [if_pos hNone]
          cases rest with
          | nil =>
            refine ⟨_, [], deregisterFrom_end _ _ _ ?_, ?_⟩
            · rw [List.append_nil]
              exact Nat.le_succ _
            · exact (hHandled.finished.of_update).remove (Function.update_self _ _ _) hNone
          | cons next rest =>
            obtain ⟨hNext, hPassed⟩ := hPassed.next hName hNone
            rw [List.length_cons] at hFuel
            obtain ⟨arrays', kept, hLoop, hFinished⟩ := ih
              (done ++ [next]) rest _ (by omega) (List.subset_of_cons_subset hRest) hPassed
              (List.pairwise_cons.mp hBehind).2 hHandled.tail
            refine ⟨arrays', next :: kept, ?_, ?_⟩
            · rw [List.length_append, List.append_assoc, List.append_assoc] at hLoop
              exact hLoop
            · refine ((hFinished.keep fun hNextName => ?_).of_update).remove hFinished.updated hNone
              by_cases hHas : s.Has callback next
              · rw [hNext hNextName hHas]
                exact hFinished.updated
              · exact hFinished.array_of_not_has hHas
        · rw [if_neg hNone, hIndex, hList]
          obtain ⟨arrays', kept, hLoop, hFinished⟩ := ih
            (done ++ [item]) rest _ hFuel hRest (hPassed.tail fun _ => hNone) hBehind hHandled
          refine ⟨arrays', item :: kept, ?_, (hFinished.keep fun _ => hFinished.updated).of_update⟩
          rw [hLoop, List.append_assoc]
          rfl
      · rw [if_neg hName, hIndex, hList]
        obtain ⟨arrays', kept, hLoop, hFinished⟩ := ih
          (done ++ [item]) rest arrays hFuel hRest (hPassed.tail fun h => absurd h hName) hBehind
          hWalked.tail
        refine ⟨arrays', item :: kept, ?_, hFinished.keep fun h => absurd h hName⟩
        rw [hLoop, List.append_assoc]
        rfl

/-! ### A callback that is not called stays out -/

theorem removeCallbacks_subset (fuel c : Nat) (array : Nat) :
    removeCallbacks callback own fuel c arrays array ⊆ arrays array := by
  induction fuel generalizing c arrays with
  | zero => exact List.Subset.refl _
  | succ fuel ih =>
    rw [removeCallbacks]
    cases (arrays callback)[c]? with
    | none => exact List.Subset.refl _
    | some cb =>
      refine List.Subset.trans (ih _) ?_
      by_cases hOwn : array = own
      · rw [hOwn, Function.update_self]
        exact List.erase_subset
      · rw [Function.update_of_ne hOwn]
        exact List.Subset.refl _

theorem deregisterFrom_subset (fuel i : Nat) (s : Store κ) (name : Text) :
    (deregisterFrom msgname callback fuel i s).called name ⊆ s.called name := by
  induction fuel generalizing i s with
  | zero => exact List.Subset.refl _
  | succ fuel ih =>
    rw [deregisterFrom]
    split
    · exact List.Subset.refl _
    · split
      · refine List.Subset.trans (ih _ _) fun cb hCb => ?_
        obtain ⟨item, hItem, hName, hCb⟩ := mem_called.mp hCb
        refine mem_called.mpr ⟨item, ?_, hName, removeCallbacks_subset _ _ _ hCb⟩
        dsimp only at hItem
        split at hItem
        · exact List.mem_of_mem_eraseIdx hItem
        · exact hItem
      · exact ih _ _

variable {toUpperCase : Text → Text}

theorem keepsOut_run {cb : κ} {calls : List Call} (hOut : cb ∉ s.called msgname)
    (hCalls : Meets (Store.step toUpperCase) (Call.KeepsOut toUpperCase msgname cb) s calls) :
    cb ∉ (runEvents (Store.step toUpperCase) s calls).called msgname := by
  have hStep : ∀ s call, cb ∉ Store.called s msgname →
      Call.KeepsOut toUpperCase msgname cb s call →
        cb ∉ (s.step toUpperCase call).called msgname := by
    intro s call hOut hKeeps
    cases call with
    | register name modulename callback =>
      intro hCb
      rcases register_called hCb with hOld | ⟨hName, hNew⟩
      · exact hOut hOld
      · exact hKeeps hName hNew
    | deregister name callback => exact fun hCb => hOut (deregisterFrom_subset _ _ _ _ hCb)
  exact @Meets.invariant _ _ _ _ _ (fun s => cb ∉ s.called msgname) hOut hStep _ hCalls

/-! ### One call, and all calls -/

theorem deregister_spec (hRemovable : s.Removable msgname callback) :
    ∃ arrays' kept, s.deregister msgname callback = ⟨arrays', kept⟩ ∧
      Finished s msgname callback s.arrays s.messageList arrays' kept :=
  deregisterFrom_spec hRemovable _ [] s.messageList s.arrays (Nat.le_refl _) (List.Subset.refl _)
    hRemovable.passed hRemovable.behind ⟨fun _ => .inl rfl, .inl rfl⟩

theorem deregistered (hRemovable : s.Removable msgname callback) :
    Deregistered toUpperCase s msgname callback (s.deregister msgname callback) := by
  obtain ⟨arrays', kept, hLoop, hFinished⟩ := deregister_spec hRemovable
  rw [hLoop]
  refine ⟨fun cb hCb calls hCalls => keepsOut_run ?_ hCalls, fun other hOther => ?_, ?_⟩
  · intro hStill
    rw [hFinished.called] at hStill
    obtain ⟨item, hItem, hName, hMem⟩ := mem_called.mp hStill
    have hMem : cb ∈ arrays' item.callbacks := hMem
    rw [hFinished.cleaned item hItem hName] at hMem
    exact of_decide_eq_true (List.mem_filter.mp hMem).2 hCb
  · rw [hFinished.called]
    refine List.flatMap_congr fun item hItem => ?_
    obtain ⟨hMem, hName⟩ := List.mem_filter.mp hItem
    rcases hFinished.array item.callbacks with hSame | ⟨hCleaned, owner, hOwner, hOwnName, hOwn⟩
    · exact hSame
    · have hNone : ¬s.Has callback owner := fun hHas => hOther <|
        (of_decide_eq_true hName).symm.trans
          (hRemovable.shared owner hOwner hOwnName hHas item hMem hOwn.symm)
      refine hCleaned.trans ?_
      rw [← hOwn, cleaned_of_not_has hNone]
  · rw [hFinished.called, called_filter, called_filter]
    refine List.flatMap_congr fun item hItem => ?_
    obtain ⟨hMem, hName⟩ := List.mem_filter.mp hItem
    have hCleaned : arrays' item.callbacks = s.cleaned callback item.callbacks :=
      hFinished.cleaned item hMem (of_decide_eq_true hName)
    refine (congrArg _ hCleaned).trans ?_
    rw [Store.cleaned, List.filter_filter]
    refine List.filter_congr fun cb _ => ?_
    rw [Bool.and_self]

/-- Nothing is registered yet; the arrays that will be passed are there. -/
def start (arrays : Nat → List κ) : Store κ := { arrays, messageList := [] }

/-- In a run all of whose calls of `deregister` find what it can remove, each of them does what
it should. -/
theorem calls_hold (toUpperCase : Text → Text) (arrays : Nat → List κ) {calls : List Call}
    (hCalls : Meets (Store.step toUpperCase) (Call.Fits toUpperCase) (start arrays) calls) :
    Meets (Store.step toUpperCase) (Call.Holds toUpperCase) (start arrays) calls := by
  refine hCalls.mono fun s call hFits => ?_
  cases call with
  | register msgname modulename callback => trivial
  | deregister msgname callback => exact deregistered hFits

/-! ### Runs -/

/-- `toUpperCase`, as far as the names below need it. -/
def upper (name : Text) : Text := name.map Char.toUpper

def lists : Nat → List Nat
  | 0 => [1, 2]
  | 1 => [1]
  | _ => [1]

def callsShown : List Call :=
  [.register ['a'] ['m'] 0, .register ['b'] ['m'] 1, .deregister ['a'] 2]

theorem calls_hold_shown :
    Meets (Store.step upper) (Call.Fits upper) (start lists) callsShown ∧
      Meets (Store.step upper) (Call.Holds upper) (start lists) callsShown := by
  have hFits : Meets (Store.step upper) (Call.Fits upper) (start lists) callsShown :=
    ⟨trivial, trivial, ⟨by decide, by decide, by decide, by decide, by decide⟩, trivial⟩
  exact ⟨hFits, calls_hold upper lists hFits⟩

/-- A second module has registered the callback, and its entry is passed over. -/
theorem not_calls_hold_second : ¬Meets (Store.step upper) (Call.Holds upper) (start lists)
    [.register ['A'] ['m'] 1, .register ['A'] ['n'] 2, .deregister ['A'] 3] := by
  rintro ⟨-, -, hDeregistered, -⟩
  exact absurd (hDeregistered.gone 1 (by decide) [] trivial) (by decide)

end PageCamel.Web.MessageList
