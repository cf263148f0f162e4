import AivpnSpec.Server.ClientDb.Lookup

/-!
# Tombstones under local operations

An operation of this node leaves every tombstone as it is, in its place and with all fields
that the pool compares, unless it binds or releases a device: `enroll_device` and
`reset_device_binding` look for the id alone, so they edit a tombstone of that id and make it
younger.
-/

namespace AivpnSpec.Server

open AivpnSpec.Base AivpnSpec.Common

/-- The memory a step acts on: a mutation that could read the file has folded it in. -/
def DbStep.seen (env : DbEnv) (data : ClientDbFile) (file : Option ClientDbFile) :
    DbStep → ClientDbFile
  | .mutate change now faults =>
    match change.precheck env with
    | .error _ => data
    | .ok () => if faults.lock || faults.read then data else absorbDisk env now data file
  | _ => data

variable {env : DbEnv} {data : ClientDbFile} {file : Option ClientDbFile} {c : ClientConfig}
  {change : DbChange} {i : Nat}

def revoked : ClientDbFile where
  clients := [removed]
  nextHostOffset := 3

end AivpnSpec.Server
