import Mathlib.Tactic.Common

/-!
# Status codes

The codes of `HDF_STATUS` the drivers return.
-/

namespace Hdf

/-- `HDF_SUCCESS`. -/
def success : Int := 0

/-- `HDF_FAILURE`. -/
def failure : Int := -1

/-- `HDF_ERR_NOT_SUPPORT`. -/
def errNotSupport : Int := -2

/-- `HDF_ERR_INVALID_PARAM`. -/
def errInvalidParam : Int := -3

/-- `HDF_ERR_INVALID_OBJECT`. -/
def errInvalidObject : Int := -4

/-- `HDF_ERR_MALLOC_FAIL`. -/
def errMallocFail : Int := -6

/-- `HDF_ERR_TIMEOUT`. -/
def errTimeout : Int := -7

/-- `HDF_ERR_IO`. -/
def errIo : Int := -17

/-- `HDF_DEV_ERR_OP`. -/
def devErrOp : Int := -201

/-- `HDF_DEV_ERR_NO_DEVICE`. -/
def devErrNoDevice : Int := -202

end Hdf
