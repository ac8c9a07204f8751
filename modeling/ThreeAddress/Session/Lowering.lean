import ThreeAddress.Session.Basic

/-!
# Lowering of conditionals and loops

Conditionals and loops become jumps between fresh labels. All labels of a statement are taken
before anything is emitted. A block is any work in the session; its results are handed on in the
order in which the blocks ran.
-/

namespace ThreeAddress.Session

open Script (UnitId)

variable {α : Type}

/-- Jumps over the block unless the test holds:

    if test goto yes
    goto done
    yes:
    block
    done:
-/
def ifThen (v : Verbosity) (u : UnitId) (test : Relation Text) (block : SessionM (List α)) :
    SessionM (List α) := do
  let yes ← fresh u .label
  let done ← fresh u .label
  let _ ← emit v u (.branch test yes)
  let _ ← emit v u (.jump done)
  let _ ← emit v u (.mark yes)
  let results ← block
  let _ ← emit v u (.mark done)
  return results

/-- Runs the first block if the test holds and else the second, which is emitted first:

    if test goto yes
    second block
    goto done
    yes:
    first block
    done:
-/
def ifElse (v : Verbosity) (u : UnitId) (test : Relation Text) (first second : SessionM (List α)) :
    SessionM (List α) := do
  let yes ← fresh u .label
  let done ← fresh u .label
  let _ ← emit v u (.branch test yes)
  let earlier ← second
  let _ ← emit v u (.jump done)
  let _ ← emit v u (.mark yes)
  let later ← first
  let _ ← emit v u (.mark done)
  return earlier ++ later

/-- Runs the block as long as the test holds. What prepares the test is emitted behind the head of
the loop, so that it runs again before every test:

    top:
    preparation
    if test goto body
    goto done
    body:
    block
    goto top
    done:
-/
def loop (v : Verbosity) (u : UnitId) (test : SessionM (List α × Relation Text))
    (block : SessionM (List α)) : SessionM (List α) := do
  let top ← fresh u .label
  let body ← fresh u .label
  let done ← fresh u .label
  let _ ← emit v u (.mark top)
  let (earlier, relation) ← test
  let _ ← emit v u (.branch relation body)
  let _ ← emit v u (.jump done)
  let _ ← emit v u (.mark body)
  let later ← block
  let _ ← emit v u (.jump top)
  let _ ← emit v u (.mark done)
  return earlier ++ later

end ThreeAddress.Session
