/- FastTransfer/Database/Database
   source: src/database/Database.h, src/database/Database.cpp
   digest: The table of transfers and the statements that write it. -/

import FastTransfer.Qt.QString
import Mathlib.Data.List.AList

set_option autoImplicit false
set_option relaxedAutoImplicit false

namespace FastTransfer

/-- A row of the table, less the two times. Counts are bound as `qint64`. -/
structure TransferRecord where
  id : QString
  direction : QString
  remoteDevice : QString
  remoteIp : QString
  status : QString
  totalFiles : Int64
  totalBytes : Int64
  transferredBytes : Int64
  errorMessage : QString
  deriving DecidableEq

/-- An open database. The identifier of a transfer is the primary key of its table; one that is null
would be bound as `NULL`, which is not unique and which no statement below finds. -/
structure Database where
  transfers : AList fun _ : QString => TransferRecord := ∅

namespace Database

/-- `INSERT`, which fails where there is such a row. -/
def recordTransferStarted (self : Database) (record : TransferRecord) : Bool × Database :=
  if record.id ∈ self.transfers then (false, self)
  else (true, { self with transfers := self.transfers.insert record.id record })

/-- `UPDATE ... WHERE id = :id`. -/
def update (self : Database) (transferId : QString) (set : TransferRecord → TransferRecord) :
    Database :=
  match self.transfers.lookup transferId with
  | none => self
  | some record => { self with transfers := self.transfers.insert transferId (set record) }

def updateTransferProgress (self : Database) (transferId : QString) (transferredBytes : UInt64)
    (status : QString) : Database :=
  self.update transferId fun record =>
    { record with transferredBytes := transferredBytes.toInt64, status := status }

def recordTransferCompleted (self : Database) (transferId status errorMessage : QString) :
    Database :=
  self.update transferId fun record =>
    { record with status := status, errorMessage := errorMessage }

def clearHistory (self : Database) : Database := { self with transfers := ∅ }

theorem lookup_started (self : Database) (record : TransferRecord) (id : QString) :
    (self.recordTransferStarted record).2.transfers.lookup id =
      if id = record.id ∧ self.transfers.lookup id = none then some record
      else self.transfers.lookup id := by
  unfold recordTransferStarted
  split
  · rename_i there
    rw [if_neg]
    rintro ⟨rfl, absent⟩
    exact AList.lookup_eq_none.mp absent there
  · rename_i fresh
    by_cases own : id = record.id
    · rw [if_pos ⟨own, own ▸ AList.lookup_eq_none.mpr fresh⟩, own, AList.lookup_insert]
    · rw [if_neg fun both => own both.1, AList.lookup_insert_ne own]

theorem lookup_update (self : Database) (transferId id : QString)
    (set : TransferRecord → TransferRecord) :
    (self.update transferId set).transfers.lookup id =
      if id = transferId then (self.transfers.lookup id).map set
      else self.transfers.lookup id := by
  cases found : self.transfers.lookup transferId with
  | none =>
      simp only [update, found]
      split
      · rename_i own
        rw [own, found]
        rfl
      · rfl
  | some record =>
      simp only [update, found]
      split
      · rename_i own
        rw [own, AList.lookup_insert, found]
        rfl
      · rename_i other
        exact AList.lookup_insert_ne other

def status? (self : Database) (transferId : QString) : Option QString :=
  (self.transfers.lookup transferId).map TransferRecord.status

theorem status?_started (self : Database) (record : TransferRecord) {id : QString}
    (found : (self.status? id).isSome) :
    (self.recordTransferStarted record).2.status? id = self.status? id := by
  unfold recordTransferStarted
  split
  · rfl
  · rename_i fresh
    have other : id ≠ record.id := by
      rintro rfl
      rw [status?, Option.isSome_map] at found
      exact fresh (AList.lookup_isSome.mp found)
    rw [status?, status?, AList.lookup_insert_ne other]

theorem status?_started_self (self : Database) (record : TransferRecord) :
    ((self.recordTransferStarted record).2.status? record.id).isSome := by
  unfold recordTransferStarted
  rw [status?, Option.isSome_map]
  split
  · rename_i there
    exact AList.lookup_isSome.mpr there
  · rw [AList.lookup_insert]
    rfl

private theorem status?_update (self : Database) (transferId id : QString) (status : QString)
    {set : TransferRecord → TransferRecord} (sets : ∀ record, (set record).status = status) :
    (self.update transferId set).status? id =
      if id = transferId then (self.status? id).map fun _ => status else self.status? id := by
  cases found : self.transfers.lookup transferId with
  | none =>
      have same : self.update transferId set = self := by
        simp only [update, found]
      rw [same]
      split
      · rename_i own
        rw [status?, own, found]
        rfl
      · rfl
  | some record =>
      have stored : (self.update transferId set).transfers =
          self.transfers.insert transferId (set record) := by
        simp only [update, found]
      rw [status?, stored]
      split
      · rename_i own
        rw [status?, own, AList.lookup_insert, found, Option.map_some, Option.map_some,
          Option.map_some, sets]
      · rename_i other
        rw [status?, AList.lookup_insert_ne other]

theorem status?_progress (self : Database) (transferId id : QString) (transferredBytes : UInt64)
    (status : QString) :
    (self.updateTransferProgress transferId transferredBytes status).status? id =
      if id = transferId then (self.status? id).map fun _ => status else self.status? id :=
  self.status?_update transferId id status fun _ => rfl

theorem status?_completed (self : Database) (transferId id status errorMessage : QString) :
    (self.recordTransferCompleted transferId status errorMessage).status? id =
      if id = transferId then (self.status? id).map fun _ => status else self.status? id :=
  self.status?_update transferId id status fun _ => rfl

end Database

end FastTransfer
