import RowStore.Assoc
import RowStore.Volume.Contents
import RowStore.Volume.Path

/-!
# Volumes

A volume is one directory of files, each with its contents. A file that does not exist has no bytes.
-/
namespace RowStore

structure Volume where
  files : Assoc String Contents := ⟨[]⟩
  deriving DecidableEq

namespace Volume

/-- The contents of a file; a file that does not exist has none. -/
def contents (volume : Volume) (name : String) : Contents := (volume.files.get? name).getD []

/-- The bytes of a file. -/
def bytes (volume : Volume) (name : String) : Bytes := (volume.contents name).toBytes

/-- Replaces the contents of a file, creating it where it does not exist. -/
def store (volume : Volume) (name : String) (contents : Contents) : Volume :=
  { volume with files := volume.files.insert name contents }

/-- Makes sure that a file exists and leaves its contents. -/
def touch (volume : Volume) (name : String) : Volume := volume.store name (volume.contents name)

def remove (volume : Volume) (name : String) : Volume :=
  { volume with files := volume.files.erase name }

theorem contents_store (volume : Volume) (name other : String) (contents : Contents) :
    (volume.store name contents).contents other =
      if other = name then contents else volume.contents other := by
  unfold Volume.contents store
  rw [Assoc.get?_insert]
  split <;> rfl

@[simp] theorem contents_touch (volume : Volume) (name other : String) :
    (volume.touch name).contents other = volume.contents other := by
  rw [touch, contents_store]
  split
  · next h => rw [h]
  · rfl

theorem bytes_store (volume : Volume) (name other : String) (contents : Contents) :
    (volume.store name contents).bytes other =
      if other = name then contents.toBytes else volume.bytes other := by
  unfold bytes
  rw [contents_store]
  split <;> rfl

@[simp] theorem bytes_touch (volume : Volume) (name other : String) :
    (volume.touch name).bytes other = volume.bytes other := by
  rw [bytes, contents_touch, bytes]

end Volume
end RowStore
