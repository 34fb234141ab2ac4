import Mathlib.Data.Nat.Notation

/-!
# Values filled at run time

`Global` lists the process-wide variables that the backends' fill routines
assign: the predefined handles, the constants whose value differs between MPI
libraries, the error classes, the attribute callbacks and the constants of the
MPI-T interface. `Global.initial` is what a fresh process holds, and the tables
give what each backend assigns, `none` where it leaves a variable alone.
-/

namespace UniMPI

/-- The variables that fill routines assign. -/
inductive Global
  | commWorld | commSelf | infoNull | requestNull | statusIgnore | fileNull | errorsAreFatal
  | errorsReturn | errorsAbort | cart | graph | distGraph | char | signedChar | unsignedChar
  | byte | short | unsignedShort | int | unsigned | long | unsignedLong | float | double
  | longDouble | longLongInt | longLong | unsignedLongLong | max | min | sum | prod | land | band
  | lor | bor | lxor | bxor | minloc | maxloc | success | errBuffer | errCount | errType | errTag
  | errComm | errRank | errRequest | errRoot | errGroup | errOp | errTopology | errDims | errArg
  | errUnknown | errTruncate | errOther | errIntern | errInStatus | errPending | errAccess
  | errAmode | errAssert | errBadFile | errBase | errConversion | errDisp | errDupDatarep
  | errFileExists | errFileInUse | errFile | errInfoKey | errInfoNokey | errInfoValue | errInfo
  | errIo | errKeyval | errLocktype | errName | errNoMem | errNotSame | errNoSpace
  | errNoSuchFile | errPort | errQuota | errReadOnly | errRmaConflict | errRmaSync | errService
  | errSize | errSpawn | errUnsupportedDatarep | errUnsupportedOperation | errWin | errRmaRange
  | errRmaAttach | errRmaShared | errRmaFlavor | errSession | errProcAborted | errValueTooLarge
  | errErrhandler | errAbi | errLastcode | lockExclusive | lockShared | anySource | procNull
  | root | inPlace | commDupFn | commNullCopyFn | commNullDeleteFn | typeDupFn | typeNullCopyFn
  | typeNullDeleteFn | winDupFn | winNullCopyFn | winNullDeleteFn | dupFn | nullCopyFn
  | nullDeleteFn | tErrMemory | tErrNotInitialized | tErrCannotInit | tErrNotSupported
  | tErrInvalidIndex | tErrInvalidItem | tErrInvalidHandle | tErrOutOfHandles | tErrOutOfSessions
  | tErrInvalidSession | tErrCvarSetNotNow | tErrCvarSetNever | tErrPvarNoStartstop
  | tErrPvarNoWrite | tErrPvarNoAtomic | tErrInvalid | tErrInvalidName | tPvarClassState
  | tPvarClassLevel | tPvarClassSize | tPvarClassPercentage | tPvarClassHighwatermark
  | tPvarClassLowwatermark | tPvarClassCounter | tPvarClassAggregate | tPvarClassTimer
  | tPvarClassGeneric | tBindNoObject | tBindMpiComm | tBindMpiDatatype | tBindMpiErrhandler
  | tBindMpiFile | tBindMpiGroup | tBindMpiOp | tBindMpiRequest | tBindMpiWin | tBindMpiMessage
  | tBindMpiInfo | tBindMpiSession | tScopeConstant | tScopeReadonly | tScopeLocal | tScopeGroup
  | tScopeGroupEq | tScopeAll | tScopeAllEq | tVerbosityUserBasic | tVerbosityUserDetail
  | tVerbosityUserAll | tVerbosityTunerBasic | tVerbosityTunerDetail | tVerbosityTunerAll
  | tVerbosityMpidevBasic | tVerbosityMpidevDetail | tVerbosityMpidevAll
  deriving DecidableEq

/-- The initialisers in the source. -/
def Global.initial : Global → Int
  | .char => 0x4c000101 | .signedChar => 0x4c000118 | .unsignedChar => 0x4c000102
  | .byte => 0x4c00010d | .short => 0x4c000203 | .unsignedShort => 0x4c000204
  | .int => 0x4c000405 | .unsigned => 0x4c000406 | .long => 0x4c000807
  | .unsignedLong => 0x4c000808 | .float => 0x4c00040a | .double => 0x4c00080b
  | .longDouble => 0x4c00100c | .longLongInt => 0x4c000809 | .longLong => 0x4c000809
  | .unsignedLongLong => 0x4c000819 | .max => 0x58000001 | .min => 0x58000002
  | .sum => 0x58000003 | .prod => 0x58000004 | .land => 0x58000005 | .band => 0x58000006
  | .lor => 0x58000007 | .bor => 0x58000008 | .lxor => 0x58000009 | .bxor => 0x5800000a
  | .minloc => 0x5800000b | .maxloc => 0x5800000c | .lockExclusive => 1 | .lockShared => 2
  | .anySource => -1 | .procNull => -1 | .root => -3
  | _ => 0

/-! ## Error classes -/

/-- What `init_mpich_error_codes` and `init_intelmpi_error_codes` have in common. -/
def legacyErrorCode : Global → Option Int
  | .anySource => some (-2)
  | .success => some 0 | .errBuffer => some 1 | .errCount => some 2 | .errType => some 3
  | .errTag => some 4 | .errComm => some 5 | .errRank => some 6 | .errRoot => some 7
  | .errGroup => some 8 | .errOp => some 9 | .errTopology => some 10 | .errDims => some 11
  | .errArg => some 12 | .errUnknown => some 13 | .errTruncate => some 14 | .errOther => some 15
  | .errIntern => some 16 | .errInStatus => some 17 | .errPending => some 18
  | .errRequest => some 19 | .errAccess => some 20 | .errAmode => some 21
  | .errBadFile => some 22 | .errConversion => some 23 | .errDupDatarep => some 24
  | .errFileExists => some 25 | .errFileInUse => some 26 | .errFile => some 27
  | .errInfo => some 28 | .errInfoKey => some 29 | .errInfoValue => some 30
  | .errInfoNokey => some 31 | .errIo => some 32 | .errName => some 33 | .errNoMem => some 34
  | .errNotSame => some 35 | .errNoSpace => some 36 | .errNoSuchFile => some 37
  | .errPort => some 38 | .errQuota => some 39 | .errReadOnly => some 40 | .errService => some 41
  | .errSpawn => some 42 | .errUnsupportedDatarep => some 43
  | .errUnsupportedOperation => some 44 | .errWin => some 45 | .errBase => some 46
  | .errLocktype => some 47 | .errKeyval => some 48 | .errRmaConflict => some 49
  | .errRmaSync => some 50 | .errSize => some 51 | .errDisp => some 52 | .errAssert => some 53
  | .errLastcode => some 0x3fffffff
  | _ => none

/-- `init_mpich_error_codes`. -/
def mpichErrorCode : Global → Option Int
  | .errRmaRange => some 55
  | g => legacyErrorCode g

/-- `init_intelmpi_error_codes`. -/
def intelmpiErrorCode : Global → Option Int
  | .errRmaAttach => some 56 | .errRmaShared => some 57 | .errRmaFlavor => some 58
  | .errSession => some 75 | .errProcAborted => some 76 | .errValueTooLarge => some 77
  | .errErrhandler => some 80 | .errAbi => some 81
  | g => legacyErrorCode g

/-- `init_msmpi_error_codes`. -/
def msmpiErrorCode : Global → Option Int
  | .anySource => some (-2)
  | .success => some 0 | .errBuffer => some 1 | .errCount => some 2 | .errType => some 3
  | .errTag => some 4 | .errComm => some 5 | .errRank => some 6 | .errRequest => some 7
  | .errRoot => some 8 | .errGroup => some 9 | .errOp => some 10 | .errTopology => some 11
  | .errDims => some 12 | .errArg => some 13 | .errUnknown => some 14 | .errTruncate => some 15
  | .errOther => some 16 | .errIntern => some 17 | .errInStatus => some 18
  | .errPending => some 19 | .errAccess => some 20 | .errAmode => some 21 | .errAssert => some 22
  | .errBadFile => some 23 | .errBase => some 24 | .errConversion => some 25
  | .errDisp => some 26 | .errDupDatarep => some 27 | .errFileExists => some 28
  | .errFileInUse => some 29 | .errFile => some 30 | .errInfoKey => some 31
  | .errInfoNokey => some 32 | .errInfoValue => some 33 | .errInfo => some 34 | .errIo => some 35
  | .errKeyval => some 36 | .errLocktype => some 37 | .errName => some 38 | .errNoMem => some 39
  | .errNotSame => some 40 | .errNoSpace => some 41 | .errNoSuchFile => some 42
  | .errPort => some 43 | .errQuota => some 44 | .errReadOnly => some 45
  | .errRmaConflict => some 46 | .errRmaSync => some 47 | .errService => some 48
  | .errSize => some 49 | .errSpawn => some 50 | .errUnsupportedDatarep => some 51
  | .errUnsupportedOperation => some 52 | .errWin => some 53 | .errLastcode => some 54
  | _ => none

/-- `init_openmpi_error_codes`. -/
def openmpiErrorCode : Global → Option Int
  | .anySource => some (-1) | .procNull => some (-2) | .root => some (-4) | .inPlace => some 1
  | .success => some 0 | .errBuffer => some 1 | .errCount => some 2 | .errType => some 3
  | .errTag => some 4 | .errComm => some 5 | .errRank => some 6 | .errRequest => some 7
  | .errRoot => some 8 | .errGroup => some 9 | .errOp => some 10 | .errTopology => some 11
  | .errDims => some 12 | .errArg => some 13 | .errUnknown => some 14 | .errTruncate => some 15
  | .errOther => some 16 | .errIntern => some 17 | .errInStatus => some 18
  | .errPending => some 19 | .errAccess => some 20 | .errAmode => some 21 | .errAssert => some 22
  | .errBadFile => some 23 | .errBase => some 24 | .errConversion => some 25
  | .errDisp => some 26 | .errDupDatarep => some 27 | .errFileExists => some 28
  | .errFileInUse => some 29 | .errFile => some 30 | .errInfoKey => some 31
  | .errInfoNokey => some 32 | .errInfoValue => some 33 | .errInfo => some 34 | .errIo => some 35
  | .errKeyval => some 36 | .errLocktype => some 37 | .errName => some 38 | .errNoMem => some 39
  | .errNotSame => some 40 | .errNoSpace => some 41 | .errNoSuchFile => some 42
  | .errPort => some 43 | .errQuota => some 44 | .errReadOnly => some 45
  | .errRmaConflict => some 46 | .errRmaSync => some 47 | .errService => some 48
  | .errSize => some 49 | .errSpawn => some 50 | .errUnsupportedDatarep => some 51
  | .errUnsupportedOperation => some 52 | .errWin => some 53 | .errLastcode => some 92
  | _ => none

/-! ## Constants of the MPI-T interface -/

/-- The constants of the integer-handle backends. -/
def legacyMtConstant : Global → Option Int
  | .tErrMemory => some 59 | .tErrNotInitialized => some 60 | .tErrCannotInit => some 61
  | .tErrInvalidIndex => some 62 | .tErrInvalidItem => some 63 | .tErrInvalidHandle => some 64
  | .tErrOutOfHandles => some 65 | .tErrOutOfSessions => some 66 | .tErrInvalidSession => some 67
  | .tErrCvarSetNotNow => some 68 | .tErrCvarSetNever => some 69
  | .tErrPvarNoStartstop => some 70 | .tErrPvarNoWrite => some 71 | .tErrPvarNoAtomic => some 72
  | .tErrInvalidName => some 73 | .tErrInvalid => some 74 | .tErrNotSupported => some 78
  | .tVerbosityUserBasic => some 221 | .tVerbosityUserDetail => some 222
  | .tVerbosityUserAll => some 223 | .tVerbosityTunerBasic => some 224
  | .tVerbosityTunerDetail => some 225 | .tVerbosityTunerAll => some 226
  | .tVerbosityMpidevBasic => some 227 | .tVerbosityMpidevDetail => some 228
  | .tVerbosityMpidevAll => some 229 | .tScopeConstant => some 60438
  | .tScopeReadonly => some 60439 | .tScopeLocal => some 60440 | .tScopeGroup => some 60441
  | .tScopeGroupEq => some 60442 | .tScopeAll => some 60443 | .tScopeAllEq => some 60444
  | .tBindNoObject => some 9700 | .tBindMpiComm => some 9701 | .tBindMpiDatatype => some 9702
  | .tBindMpiErrhandler => some 9703 | .tBindMpiFile => some 9704 | .tBindMpiGroup => some 9705
  | .tBindMpiOp => some 9706 | .tBindMpiRequest => some 9707 | .tBindMpiWin => some 9708
  | .tBindMpiMessage => some 9709 | .tBindMpiInfo => some 9710 | .tBindMpiSession => some 9711
  | .tPvarClassState => some 240 | .tPvarClassLevel => some 241 | .tPvarClassSize => some 242
  | .tPvarClassPercentage => some 243 | .tPvarClassHighwatermark => some 244
  | .tPvarClassLowwatermark => some 245 | .tPvarClassCounter => some 246
  | .tPvarClassAggregate => some 247 | .tPvarClassTimer => some 248
  | .tPvarClassGeneric => some 249
  | _ => none

/-- The constants of Open MPI. -/
def openmpiMtConstant : Global → Option Int
  | .tErrMemory => some 54 | .tErrNotInitialized => some 55 | .tErrCannotInit => some 56
  | .tErrInvalidIndex => some 57 | .tErrInvalidItem => some 58 | .tErrInvalidHandle => some 59
  | .tErrOutOfHandles => some 60 | .tErrOutOfSessions => some 61 | .tErrInvalidSession => some 62
  | .tErrCvarSetNotNow => some 63 | .tErrCvarSetNever => some 64
  | .tErrPvarNoStartstop => some 65 | .tErrPvarNoWrite => some 66 | .tErrPvarNoAtomic => some 67
  | .tErrInvalid => some 72 | .tErrInvalidName => some 73 | .tVerbosityUserBasic => some 0
  | .tVerbosityUserDetail => some 1 | .tVerbosityUserAll => some 2
  | .tVerbosityTunerBasic => some 3 | .tVerbosityTunerDetail => some 4
  | .tVerbosityTunerAll => some 5 | .tVerbosityMpidevBasic => some 6
  | .tVerbosityMpidevDetail => some 7 | .tVerbosityMpidevAll => some 8
  | .tScopeConstant => some 0 | .tScopeReadonly => some 1 | .tScopeLocal => some 2
  | .tScopeGroup => some 3 | .tScopeGroupEq => some 4 | .tScopeAll => some 5
  | .tScopeAllEq => some 6 | .tBindNoObject => some 0 | .tBindMpiComm => some 1
  | .tBindMpiDatatype => some 2 | .tBindMpiErrhandler => some 3 | .tBindMpiFile => some 4
  | .tBindMpiGroup => some 5 | .tBindMpiOp => some 6 | .tBindMpiRequest => some 7
  | .tBindMpiWin => some 8 | .tBindMpiMessage => some 9 | .tBindMpiInfo => some 10
  | .tPvarClassState => some 0 | .tPvarClassLevel => some 1 | .tPvarClassSize => some 2
  | .tPvarClassPercentage => some 3 | .tPvarClassHighwatermark => some 4
  | .tPvarClassLowwatermark => some 5 | .tPvarClassCounter => some 6
  | .tPvarClassAggregate => some 7 | .tPvarClassTimer => some 8 | .tPvarClassGeneric => some 9
  | _ => none

/-! ## Handles -/

/-- The handles and sentinels that the three integer-handle backends assign alike. -/
def legacyHandle : Global → Option Int
  | .lockExclusive => some 234 | .lockShared => some 235 | .inPlace => some (-1)
  | .requestNull => some 0x2c000000 | .statusIgnore => some 1 | .infoNull => some 0x1c000000
  | .fileNull => some 0 | .errorsAreFatal => some 0x54000000 | .errorsReturn => some 0x54000001
  | .errorsAbort => some 0x54000003 | .graph => some 1 | .cart => some 2 | .distGraph => some 3
  | _ => none

/-- The symbols whose addresses are Open MPI's datatypes and operations. -/
def openmpiHandleSymbol : Global → Option String
  | .char => some "ompi_mpi_char" | .signedChar => some "ompi_mpi_signed_char"
  | .unsignedChar => some "ompi_mpi_unsigned_char" | .byte => some "ompi_mpi_byte"
  | .short => some "ompi_mpi_short" | .unsignedShort => some "ompi_mpi_unsigned_short"
  | .int => some "ompi_mpi_int" | .unsigned => some "ompi_mpi_unsigned"
  | .long => some "ompi_mpi_long" | .unsignedLong => some "ompi_mpi_unsigned_long"
  | .float => some "ompi_mpi_float" | .double => some "ompi_mpi_double"
  | .longDouble => some "ompi_mpi_long_double" | .longLongInt => some "ompi_mpi_long_long_int"
  | .unsignedLongLong => some "ompi_mpi_unsigned_long_long"
  | .longLong => some "ompi_mpi_long_long_int" | .max => some "ompi_mpi_op_max"
  | .min => some "ompi_mpi_op_min" | .sum => some "ompi_mpi_op_sum"
  | .prod => some "ompi_mpi_op_prod" | .land => some "ompi_mpi_op_land"
  | .band => some "ompi_mpi_op_band" | .lor => some "ompi_mpi_op_lor"
  | .bor => some "ompi_mpi_op_bor" | .lxor => some "ompi_mpi_op_lxor"
  | .bxor => some "ompi_mpi_op_bxor" | .minloc => some "ompi_mpi_op_minloc"
  | .maxloc => some "ompi_mpi_op_maxloc"
  | _ => none

/-- The symbols of Open MPI's predefined attribute callbacks. -/
def openmpiCallbackSymbol : Global → Option String
  | .commDupFn => some "OMPI_C_MPI_COMM_DUP_FN"
  | .commNullCopyFn => some "OMPI_C_MPI_COMM_NULL_COPY_FN"
  | .commNullDeleteFn => some "OMPI_C_MPI_COMM_NULL_DELETE_FN"
  | .typeDupFn => some "OMPI_C_MPI_TYPE_DUP_FN"
  | .typeNullCopyFn => some "OMPI_C_MPI_TYPE_NULL_COPY_FN"
  | .typeNullDeleteFn => some "OMPI_C_MPI_TYPE_NULL_DELETE_FN"
  | .winDupFn => some "OMPI_C_MPI_WIN_DUP_FN"
  | .winNullCopyFn => some "OMPI_C_MPI_WIN_NULL_COPY_FN"
  | .winNullDeleteFn => some "OMPI_C_MPI_WIN_NULL_DELETE_FN" | .dupFn => some "OMPI_C_MPI_DUP_FN"
  | .nullCopyFn => some "OMPI_C_MPI_NULL_COPY_FN"
  | .nullDeleteFn => some "OMPI_C_MPI_NULL_DELETE_FN"
  | _ => none

end UniMPI
