import Multitouch.Target.Room.Build

/-!
# States for a choice between words

When all alternatives are texts, their bytes are passed together as far as they agree.  The order
of the alternatives is kept: where one of them ends, those that come after it are kept apart from
those that come before.
-/

namespace Multitouch.Target

/-- The bytes of words. -/
abbrev Words := List (List Nat)

namespace Words

/-- Words in groups, between which a word ends before its first byte.  That no word comes before
the first end is told once. -/
def groups (words : Words) : List Words :=
  let (closed, group) := words.foldl (fun (closed, group) word =>
    if word ≠ [] then (closed, group ++ [word])
    else if closed = [[]] ∧ group = [] then (closed, group)
    else (closed ++ [group], [])) ([], [])
  closed ++ [group]

/-- What comes after a first byte in the words that begin with it. -/
def after (byte : Nat) (words : Words) : Words :=
  words.filterMap fun
    | b :: word => if b = byte then some word else none
    | [] => none

/-- The states before words of at most the given length: one that branches to every group that is
not empty and to every end, and one for each of these groups.  That has no edges but those for its
first bytes, which need none if there is only one. -/
def build : Nat → Words → Build
  | 0, _ => .none
  | length + 1, words =>
    let all := groups words
    match all.filter (· ≠ []) with
    | [] => .none
    | filled =>
      filled.foldl (fun b group =>
        let bytes := (group.filterMap List.head?).eraseDups
        let edges := if bytes.length = 1 then 0 else bytes.length
        bytes.foldl (fun b byte => b + build length (after byte group)) (b + .of 1 edges 0))
        (.of 1 0 (filled.length + (all.length - 1)))

end Words

end Multitouch.Target
