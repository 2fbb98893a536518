import Mathlib.Data.List.Sort

/-!
Perl's `sort` of strings, which are compared character by character.
-/

namespace PageCamel.Lib

def textLe : List Char → List Char → Bool
  | [], _ => true
  | _ :: _, [] => false
  | a :: s, b :: t => a < b || (a == b && textLe s t)

def sorted (texts : List (List Char)) : List (List Char) :=
  texts.insertionSort fun s t => textLe s t = true

theorem sorted_perm (texts : List (List Char)) : (sorted texts).Perm texts :=
  List.perm_insertionSort _ texts

theorem mem_sorted {text : List Char} {texts : List (List Char)} :
    text ∈ sorted texts ↔ text ∈ texts := (sorted_perm texts).mem_iff

theorem nodup_sorted {texts : List (List Char)} (hNodup : texts.Nodup) : (sorted texts).Nodup :=
  (sorted_perm texts).nodup_iff.mpr hNodup

end PageCamel.Lib
