import RowStore.Tuple.Basic

/-!
# Playback of rows

A fixed list of rows is played from the front, and again from the front after a rewind.
-/
namespace RowStore

structure Playback where
  rows : List Tuple
  rest : List Tuple
  deriving DecidableEq

namespace Playback

def ofRows (rows : List Tuple) : Playback := ⟨rows, rows⟩

def next (playback : Playback) : Option Tuple × Playback :=
  (playback.rest.head?, { playback with rest := playback.rest.tail })

def rewind (playback : Playback) : Playback := ofRows playback.rows

theorem length_rest_next {playback : Playback} {t : Tuple} (h : playback.next.1 = some t) :
    playback.next.2.rest.length < playback.rest.length := by
  obtain ⟨rows, rest⟩ := playback
  cases rest with
  | nil => simp [next] at h
  | cons u us => exact Nat.lt_succ_self _

end Playback
end RowStore
